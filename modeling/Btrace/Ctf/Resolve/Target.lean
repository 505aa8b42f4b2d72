import Btrace.Ctf.Resolve.Spelling

set_option autoImplicit false

/- The stack the traversal holds at a node, and what the reading part of
`resolve_sequence_or_variant_field_class` computes from a context that holds it:
never a failed assertion, and, when it finds a target, one that spells the
reference and passes every check of `validate_target_field_path`. -/
namespace Btrace.Ctf

open CtfFieldClass

/-- The frames the traversal holds at position `pos` below `fc`: one per
ancestor, with the index the descent takes from it. -/
def ancestorFrames : CtfFieldClass → List Int → List FieldClassStackFrame
  | _, [] => []
  | fc, index :: pos =>
      ⟨fc, index⟩ :: match fc.compoundBorrowFieldClassByIndex index with
        | some child => ancestorFrames child pos
        | none => []

theorem ancestorFrames_concat :
    ∀ (pos : List Int) (fc child : CtfFieldClass) (index : Int),
      fc.borrowFieldClassByPath pos = some child →
        ancestorFrames fc (pos ++ [index]) = ancestorFrames fc pos ++ [⟨child, index⟩]
  | [], fc, child, index, reached => by
      simp only [borrowFieldClassByPath_nil, Option.some.injEq] at reached
      subst reached
      simp only [List.nil_append, ancestorFrames]
      split <;> rfl
  | i :: pos, fc, child, index, reached => by
      simp only [borrowFieldClassByPath, Option.bind_eq_some] at reached
      obtain ⟨c, found, reached⟩ := reached
      simp [ancestorFrames, found, ancestorFrames_concat pos c child index reached]

theorem ancestorFrames_getElem? :
    ∀ (pos : List Int) (fc : CtfFieldClass), (fc.borrowFieldClassByPath pos).isSome →
      ∀ k : Nat, (ancestorFrames fc pos)[k]? =
        (fc.borrowFieldClassByPath (pos.take k)).bind fun ancestor => pos[k]?.map (⟨ancestor, ·⟩)
  | [], _, _, k => by simp [ancestorFrames]
  | index :: pos, fc, valid, k => by
      simp only [borrowFieldClassByPath] at valid
      cases found : fc.compoundBorrowFieldClassByIndex index with
      | none => simp [found] at valid
      | some child =>
          simp only [found, Option.some_bind] at valid
          cases k with
          | zero => simp [ancestorFrames]
          | succ k =>
              simp [ancestorFrames, found, borrowFieldClassByPath,
                ancestorFrames_getElem? pos child (by simpa using valid) k]

theorem ancestorFrames_indices :
    ∀ (pos : List Int) (fc : CtfFieldClass), (fc.borrowFieldClassByPath pos).isSome →
      (ancestorFrames fc pos).map (·.index) = pos
  | [], _, _ => rfl
  | index :: pos, fc, valid => by
      simp only [borrowFieldClassByPath] at valid
      cases found : fc.compoundBorrowFieldClassByIndex index with
      | none => simp [found] at valid
      | some child =>
          simp only [found, Option.some_bind] at valid
          simp [ancestorFrames, found, ancestorFrames_indices pos child valid]

theorem ancestorFrames_eraseTargets :
    ∀ (pos : List Int) (fc : CtfFieldClass),
      (ancestorFrames fc pos).map FieldClassStackFrame.eraseTargets = ancestorFrames fc.eraseTargets pos
  | [], _ => rfl
  | index :: pos, fc => by
      simp only [ancestorFrames, List.map_cons, compoundBorrowFieldClassByIndex_eraseTargets]
      cases fc.compoundBorrowFieldClassByIndex index with
      | none => rfl
      | some child => simp [FieldClassStackFrame.eraseTargets, ancestorFrames_eraseTargets pos child]

/-- `path` takes -1 at every array or sequence it crosses below `fc`, as every
path the resolver builds does. -/
def ArraySteps : CtfFieldClass → List Int → Prop
  | _, [] => True
  | .array elemFc _, index :: path | .sequence elemFc _ _ _ _, index :: path =>
      index = -1 ∧ ArraySteps elemFc path
  | .struct members, index :: path | .variant _ _ _ members, index :: path =>
      ∀ child, borrowMember index members = some child → ArraySteps child path
  | _, _ :: _ => True

@[simp] theorem arraySteps_nil (fc : CtfFieldClass) : ArraySteps fc [] := by
  cases fc <;> trivial

theorem Spells.arraySteps {fc : CtfFieldClass} {ptokens : List String} {path : List Int}
    (spells : Spells fc ptokens path) : ArraySteps fc path := by
  induction spells with
  | done fc => exact arraySteps_nil fc
  | array _ ih | sequence _ ih => exact ⟨rfl, ih⟩
  | struct first _ ih | variant first _ ih =>
      intro child found
      rw [first.borrowMember_eq] at found
      cases found
      exact ih

theorem arraySteps_append :
    ∀ (path rest : List Int) (fc : CtfFieldClass),
      ArraySteps fc path → (∀ target, fc.borrowFieldClassByPath path = some target → ArraySteps target rest) →
        ArraySteps fc (path ++ rest)
  | [], rest, fc, _, after => after fc rfl
  | index :: path, rest, fc, steps, after => by
      cases fc with
      | array elemFc _ | sequence elemFc _ _ _ _ =>
          exact ⟨steps.1, arraySteps_append path rest elemFc steps.2 fun target reached =>
            after target (by simpa [borrowFieldClassByPath, compoundBorrowFieldClassByIndex] using reached)⟩
      | struct members | variant _ _ _ members =>
          intro child found
          exact arraySteps_append path rest child (steps child found) fun target reached =>
            after target (by simp [borrowFieldClassByPath, compoundBorrowFieldClassByIndex, found, reached])
      | _ => trivial

theorem arraySteps_take :
    ∀ (path : List Int) (k : Nat) (fc : CtfFieldClass), ArraySteps fc path → ArraySteps fc (path.take k)
  | [], _, fc, _ => by rw [List.take_nil]; exact arraySteps_nil fc
  | _ :: _, 0, fc, _ => by rw [List.take_zero]; exact arraySteps_nil fc
  | index :: path, k + 1, fc, steps => by
      cases fc with
      | array elemFc _ | sequence elemFc _ _ _ _ => exact ⟨steps.1, arraySteps_take path k elemFc steps.2⟩
      | struct members | variant _ _ _ members =>
          intro child found
          exact arraySteps_take path k child (steps child found)
      | _ => trivial

theorem arraySteps_eraseTargets :
    ∀ (path : List Int) (fc : CtfFieldClass), ArraySteps fc.eraseTargets path ↔ ArraySteps fc path
  | [], fc => iff_of_true (arraySteps_nil _) (arraySteps_nil fc)
  | index :: path, fc => by
      have members : ∀ members : List (String × CtfFieldClass),
          (∀ child, borrowMember index (members.map fun m => (m.1, m.2.eraseTargets)) = some child →
            ArraySteps child path) ↔
          (∀ child, borrowMember index members = some child → ArraySteps child path) := by
        intro members
        rw [borrowMember_map]
        cases borrowMember index members with
        | none => simp
        | some child => simpa using arraySteps_eraseTargets path child
      cases fc with
      | array elemFc _ | sequence elemFc _ _ _ _ => exact and_congr Iff.rfl (arraySteps_eraseTargets path elemFc)
      | struct ms => rw [eraseTargets_struct]; exact members ms
      | variant _ _ _ ms => rw [eraseTargets_variant]; exact members ms
      | _ => exact Iff.rfl

theorem ArraySteps.child {fc child : CtfFieldClass} {index : Int} {path : List Int}
    (steps : ArraySteps fc (index :: path)) (found : fc.compoundBorrowFieldClassByIndex index = some child) :
    ArraySteps child path := by
  cases fc with
  | array elemFc _ | sequence elemFc _ _ _ _ =>
      simp only [compoundBorrowFieldClassByIndex, Option.some.injEq] at found
      exact found ▸ steps.2
  | struct members | variant _ _ _ members => exact steps child found
  | _ => cases found

/-- A structure or a variant: the classes whose children are named. -/
def CtfFieldClass.isStructOrVariant : CtfFieldClass → Bool
  | .struct _ | .variant _ _ _ _ => true
  | _ => false

/-- Two paths that take -1 at every array or sequence, the first of which is a
walk that exists, split at a structure or a variant: at an array or sequence
both would take -1. -/
theorem ArraySteps.splitPoint :
    ∀ (k : Nat) (fc ancestor : CtfFieldClass) (path1 path2 : List Int) (x y : Int),
      ArraySteps fc path1 → ArraySteps fc path2 → (fc.borrowFieldClassByPath path1).isSome →
        path1.take k = path2.take k → fc.borrowFieldClassByPath (path1.take k) = some ancestor →
        path1[k]? = some x → path2[k]? = some y → x ≠ y → ancestor.isStructOrVariant = true
  | _, _, _, [], _, _, _, _, _, _, _, _, at1, _, _ | _, _, _, _ :: _, [], _, _, _, _, _, _, _, _, at2, _ => by
      simp at *
  | 0, fc, ancestor, i :: path1, j :: path2, x, y, steps1, steps2, walk, _, reached, at1, at2, differ => by
      simp only [List.getElem?_cons_zero, Option.some.injEq, List.take_zero, borrowFieldClassByPath_nil]
        at at1 at2 reached
      subst at1 at2 reached
      cases fc with
      | array _ _ | sequence _ _ _ _ _ => exact absurd (steps1.1.trans steps2.1.symm) differ
      | struct _ | variant _ _ _ _ => rfl
      | _ => simp [borrowFieldClassByPath, compoundBorrowFieldClassByIndex] at walk
  | k + 1, fc, ancestor, i :: path1, j :: path2, x, y, steps1, steps2, walk, same, reached, at1, at2, differ => by
      simp only [List.take_succ_cons, List.cons.injEq] at same
      obtain ⟨rfl, same⟩ := same
      simp only [List.getElem?_cons_succ] at at1 at2
      simp only [List.take_succ_cons, borrowFieldClassByPath, Option.bind_eq_some] at reached
      obtain ⟨child, found, reached⟩ := reached
      simp only [borrowFieldClassByPath, found, Option.some_bind] at walk
      exact ArraySteps.splitPoint k child ancestor path1 path2 x y (steps1.child found) (steps2.child found)
        walk same reached at1 at2 differ


theorem getFieldPathsLcaIndexLoop_spec :
    ∀ (path1 path2 : List Int) (lcaIndex : Int),
      getFieldPathsLcaIndexLoop path1 path2 lcaIndex = -1 ∨
        ∃ k : Nat, getFieldPathsLcaIndexLoop path1 path2 lcaIndex = lcaIndex + k ∧
          path1.take k = path2.take k ∧ ∃ x y, path1[k]? = some x ∧ path2[k]? = some y ∧ x ≠ y
  | [], _, _ | _ :: _, [], _ => .inl rfl
  | x :: path1, y :: path2, lcaIndex => by
      simp only [getFieldPathsLcaIndexLoop]
      split_ifs with differ
      · exact .inr ⟨0, by simp, by simp, x, y, by simp, by simp, differ⟩
      · rcases getFieldPathsLcaIndexLoop_spec path1 path2 (lcaIndex + 1) with
          none | ⟨k, found, same, x', y', at1, at2, differ'⟩
        · exact .inl none
        · have sameHead : x = y := not_not.mp differ
          refine .inr ⟨k + 1, by rw [found]; omega, ?_, x', y', by simpa using at1, by simpa using at2, differ'⟩
          simp only [List.take_succ_cons, sameHead, same]

theorem validateTargetFieldPath_ok {targetFieldPath : CtfFieldPath} {targetFc curFc : CtfFieldClass}
    {ctx : ResolveContext} (valid : validateTargetFieldPath targetFieldPath targetFc curFc ctx = .ok ()) :
    targetFieldPath.path ≠ [] ∧ targetFieldPath.root.toNat ≤ (getCtxStackFieldPath ctx).root.toNat ∧
      (targetFieldPath.root = (getCtxStackFieldPath ctx).root →
        ∃ (k : Nat) (x y : Int), targetFieldPath.path.take k = (getCtxStackFieldPath ctx).path.take k ∧
          targetFieldPath.path[k]? = some x ∧ (getCtxStackFieldPath ctx).path[k]? = some y ∧ x < y) ∧
      validateTargetFieldClass targetFc curFc = .ok () := by
  simp only [validateTargetFieldPath, getFieldPathsLcaIndex, bind, Except.bind, pure, Except.pure] at valid
  generalize getCtxStackFieldPath ctx = ctxFieldPath at valid ⊢
  by_cases empty : targetFieldPath.path.length = 0
  · simp [empty] at valid
  by_cases later : targetFieldPath.root.toNat > ctxFieldPath.root.toNat
  · simp [empty, later] at valid
  simp only [empty, later, if_false] at valid
  refine ⟨by simpa using empty, by omega, ?_⟩
  by_cases sameRoot : targetFieldPath.root = ctxFieldPath.root
  · simp only [sameRoot, if_true] at valid
    rcases getFieldPathsLcaIndexLoop_spec targetFieldPath.path ctxFieldPath.path 0 with
      none | ⟨k, found, same, x, y, at1, at2, differ⟩
    · simp [none] at valid
    · have notBelow : ¬ ((0 : Int) + k < 0) := by omega
      have index : ((0 : Int) + k).toNat = k := by omega
      simp only [found, notBelow, if_false, index, ctfFieldPathBorrowIndexByIndex, at1, at2] at valid
      split_ifs at valid with ordered
      exact ⟨fun _ => ⟨k, x, y, same, at1, at2, by omega⟩, valid⟩
  · simp only [sameRoot, if_false] at valid
    exact ⟨fun h => absurd h sameRoot, valid⟩

/-- A sequence or a variant: the classes whose reference the resolver follows. -/
def CtfFieldClass.isSequenceOrVariant : CtfFieldClass → Bool
  | .sequence _ _ _ _ _ | .variant _ _ _ _ => true
  | _ => false

/-- The reference a sequence or variant holds: its `length_ref` or `tag_ref`. -/
def CtfFieldClass.reference : CtfFieldClass → Option String
  | .sequence _ _ lengthRef _ _ => some lengthRef
  | .variant tagRef _ _ _ => some tagRef
  | _ => none

theorem validateTargetFieldClass_ne_aborted (targetFc : CtfFieldClass) {curFc : CtfFieldClass}
    (kind : curFc.isSequenceOrVariant = true) : validateTargetFieldClass targetFc curFc ≠ .error .aborted := by
  cases curFc <;> simp [CtfFieldClass.isSequenceOrVariant] at kind <;>
    cases targetFc <;> simp [validateTargetFieldClass, asInt] <;> split <;> simp

theorem validateTargetFieldPath_ne_aborted (targetFieldPath : CtfFieldPath) (targetFc : CtfFieldClass)
    {curFc : CtfFieldClass} (ctx : ResolveContext) (kind : curFc.isSequenceOrVariant = true) :
    validateTargetFieldPath targetFieldPath targetFc curFc ctx ≠ .error .aborted := by
  have checked := validateTargetFieldClass_ne_aborted targetFc kind
  simp only [validateTargetFieldPath, getFieldPathsLcaIndex, bind, Except.bind, pure, Except.pure]
  generalize getCtxStackFieldPath ctx = ctxFieldPath
  split_ifs with empty later sameRoot
  all_goals try simp
  · rcases getFieldPathsLcaIndexLoop_spec targetFieldPath.path ctxFieldPath.path 0 with
      none | ⟨k, found, _, x, y, at1, at2, _⟩
    · simp [none]
    · have notBelow : ¬ ((0 : Int) + k < 0) := by omega
      have index : ((0 : Int) + k).toNat = k := by omega
      simp only [found, notBelow, if_false, index, ctfFieldPathBorrowIndexByIndex, at1, at2]
      split_ifs <;> simp [checked]
  · exact checked

/-- `field_path_to_field_class` follows a walk that exists and asserts
otherwise. -/
theorem fieldPathToFieldClassLoop_eq :
    ∀ (path : List Int) (fc : CtfFieldClass),
      fieldPathToFieldClassLoop path fc =
        match fc.borrowFieldClassByPath path with
        | some target => .ok target
        | none => .error .aborted
  | [], _ => rfl
  | childIndex :: path, fc => by
      simp only [fieldPathToFieldClassLoop, borrowFieldClassByPath]
      cases fc.compoundBorrowFieldClassByIndex childIndex with
      | none => rfl
      | some child => exact fieldPathToFieldClassLoop_eq path child

theorem stitchHead_eq :
    ∀ (stack : List FieldClassStackFrame) (parentPos : Nat), parentPos < stack.length →
      stitchHead stack parentPos = .ok ((stack.take parentPos).map (·.index))
  | [], _, below => absurd below (by simp)
  | _ :: _, 0, _ => rfl
  | frame :: frames, parentPos + 1, below => by
      simp [stitchHead, stitchHead_eq frames parentPos (by simpa using below)]

theorem fieldClassStackAt_of_getElem? {stack : List FieldClassStackFrame} {index : Nat}
    {frame : FieldClassStackFrame} (found : stack[index]? = some frame) :
    fieldClassStackAt stack index = .ok frame := by
  simp [fieldClassStackAt, found]

theorem relativePtokensToFieldPathFrom_ne_aborted (ptokens : List String) (stack : List FieldClassStackFrame) :
    ∀ count : Nat, count ≤ stack.length → relativePtokensToFieldPathFrom ptokens stack count ≠ .error .aborted
  | 0, _ => by simp [relativePtokensToFieldPathFrom]
  | parentPos + 1, below => by
      obtain ⟨frame, found⟩ : ∃ frame, stack[parentPos]? = some frame :=
        ⟨stack[parentPos], List.getElem?_eq_getElem (by omega)⟩
      simp only [relativePtokensToFieldPathFrom, fieldClassStackAt_of_getElem? found]
      cases search : ptokensToFieldPath frame.index ptokens frame.fc false with
      | ok tail => simp [stitchHead_eq stack parentPos (by omega)]
      | error e =>
          obtain rfl := ptokensToFieldPath_error frame.index ptokens frame.fc false e search
          exact relativePtokensToFieldPathFrom_ne_aborted ptokens stack parentPos (by omega)

/-- The search of `relative_ptokens_to_field_path`: the deepest frame below
`count` from which the tokens resolve gives the tail, after the indices of the
frames below it; every deeper frame fails. -/
theorem relativePtokensToFieldPathFrom_ok (ptokens : List String) (stack : List FieldClassStackFrame) :
    ∀ (count : Nat) (path : List Int), count ≤ stack.length →
      relativePtokensToFieldPathFrom ptokens stack count = .ok path →
        ∃ k frame tail, k < count ∧ stack[k]? = some frame ∧
          ptokensToFieldPath frame.index ptokens frame.fc false = .ok tail ∧
          path = (stack.take k).map (·.index) ++ tail ∧
          ∀ k' frame', k < k' → k' < count → stack[k']? = some frame' →
            ptokensToFieldPath frame'.index ptokens frame'.fc false = .error .failed
  | 0, _, _, found => by simp [relativePtokensToFieldPathFrom] at found
  | parentPos + 1, path, below, found => by
      obtain ⟨frame, atParent⟩ : ∃ frame, stack[parentPos]? = some frame :=
        ⟨stack[parentPos], List.getElem?_eq_getElem (by omega)⟩
      simp only [relativePtokensToFieldPathFrom, fieldClassStackAt_of_getElem? atParent] at found
      cases search : ptokensToFieldPath frame.index ptokens frame.fc false with
      | ok tail =>
          simp only [search, stitchHead_eq stack parentPos (by omega), except_map_ok, Except.ok.injEq] at found
          refine ⟨parentPos, frame, tail, by omega, atParent, search, found.symm, fun k' _ above below' _ => ?_⟩
          omega
      | error e =>
          obtain rfl := ptokensToFieldPath_error frame.index ptokens frame.fc false e search
          simp only [search] at found
          obtain ⟨k, frame', tail, lower, at', search', rfl, deeper⟩ :=
            relativePtokensToFieldPathFrom_ok ptokens stack parentPos path (by omega) found
          refine ⟨k, frame', tail, by omega, at', search', rfl, fun k'' frame'' above below' at'' => ?_⟩
          by_cases top : k'' = parentPos
          · subst top
            rw [atParent] at at''
            cases at''
            exact search
          · exact deeper k'' frame'' above (by omega) at''

theorem ptokensToFieldPath_ne_aborted (srcIndex : Int) (ptokens : List String) (fc : CtfFieldClass)
    (firstLevelDone : Bool) : ptokensToFieldPath srcIndex ptokens fc firstLevelDone ≠ .error .aborted :=
  fun aborted => by cases ptokensToFieldPath_error srcIndex ptokens fc firstLevelDone _ aborted

theorem except_map_ne_aborted {α β : Type} (f : α → β) {x : Except ResolveError α}
    (notAborted : x ≠ .error .aborted) : f <$> x ≠ .error .aborted := by
  cases x <;> simp_all

theorem absolutePtokensToFieldPath_ne_aborted (ptokens : List String) (scope : CtfScope)
    (ctx : ResolveContext) : absolutePtokensToFieldPath ptokens scope ctx ≠ .error .aborted := by
  unfold absolutePtokensToFieldPath
  split
  · split
    · exact ptokensToFieldPath_ne_aborted _ _ _ _
    · simp
  · simp

theorem pathstrToFieldPath_ne_aborted (pathstr : String) (ctx : ResolveContext) :
    pathstrToFieldPath pathstr ctx ≠ .error .aborted := by
  unfold pathstrToFieldPath
  split
  · simp
  · split
    · exact except_map_ne_aborted _
        (relativePtokensToFieldPathFrom_ne_aborted _ ctx.fieldClassStack _ (le_refl _))
    · exact except_map_ne_aborted _ (absolutePtokensToFieldPath_ne_aborted _ _ ctx)

/-- The context the resolver is in when it visits the class `fc` at position
`pos` below the root class `rootFc`, which the root scope's pointer `rootRef`
points to: the stack holds the ancestors of `fc`. -/
structure AtNode (ctx : ResolveContext) (rootRef : RootClassRef) (rootFc : CtfFieldClass)
    (pos : List Int) (fc : CtfFieldClass) : Prop where
  scope : ctx.scopes.get ctx.rootScope = some rootRef
  root : ctx.tc.rootClass rootRef = some rootFc
  reached : rootFc.borrowFieldClassByPath pos = some fc
  steps : ArraySteps rootFc pos
  stack : ctx.fieldClassStack = ancestorFrames rootFc pos

namespace AtNode

variable {ctx : ResolveContext} {rootRef : RootClassRef} {rootFc : CtfFieldClass} {pos : List Int}
  {fc : CtfFieldClass}

theorem borrowRoot (node : AtNode ctx rootRef rootFc pos fc) :
    borrowClassFromCtx ctx ctx.rootScope = some rootFc := by
  simp [borrowClassFromCtx, node.scope, node.root]

theorem indices (node : AtNode ctx rootRef rootFc pos fc) : ctx.fieldClassStack.map (·.index) = pos := by
  rw [node.stack, ancestorFrames_indices pos rootFc (by simp [node.reached])]

theorem stackFieldPath (node : AtNode ctx rootRef rootFc pos fc) :
    getCtxStackFieldPath ctx = ⟨ctx.rootScope, pos⟩ := by
  simp [getCtxStackFieldPath, node.indices]

theorem frame (node : AtNode ctx rootRef rootFc pos fc) (k : Nat) :
    ctx.fieldClassStack[k]? =
      (rootFc.borrowFieldClassByPath (pos.take k)).bind fun ancestor => pos[k]?.map (⟨ancestor, ·⟩) := by
  rw [node.stack, ancestorFrames_getElem? pos rootFc (by simp [node.reached])]

/-- Erasing the stored targets keeps a context at its node. -/
theorem eraseTargets (node : AtNode ctx rootRef rootFc pos fc) :
    AtNode ctx.eraseTargets rootRef rootFc.eraseTargets pos fc.eraseTargets where
  scope := node.scope
  root := by simp [ResolveContext.eraseTargets, CtfTraceClass.rootClass_eraseTargets, node.root]
  reached := by simp [borrowFieldClassByPath_eraseTargets, node.reached]
  steps := (arraySteps_eraseTargets pos rootFc).2 node.steps
  stack := by simp [node.stack, ancestorFrames_eraseTargets]

end AtNode

/-- The relative rule: `path` is the ancestors' prefix `pos[0..k)` followed by a
descent spelling the tokens from the depth-`k` ancestor whose first named step
comes no later than `pos[k]`, and no deeper ancestor has such a descent. -/
def RelativeSpelling (rootFc : CtfFieldClass) (pos : List Int) (ptokens : List String)
    (path : List Int) : Prop :=
  ∃ (k : Nat) (ancestor : CtfFieldClass) (bound : Int) (tail : List Int),
    rootFc.borrowFieldClassByPath (pos.take k) = some ancestor ∧ pos[k]? = some bound ∧
    path = pos.take k ++ tail ∧ Spells ancestor ptokens tail ∧ FirstNamedWithin bound tail ∧
    ∀ (k' : Nat) (ancestor' : CtfFieldClass) (bound' : Int), k < k' →
      rootFc.borrowFieldClassByPath (pos.take k') = some ancestor' → pos[k']? = some bound' →
        ∀ tail', Spells ancestor' ptokens tail' → ¬ FirstNamedWithin bound' tail'

/-- The reference rules for the reference `pathstr` of the node at position
`pos` below the root class `rootFc` of scope `rootScope`: an absolute prefix is
followed from the root class `rootOf` gives for its scope, anything else from
the node's ancestors. -/
def SpellsReference (rootOf : CtfScope → Option CtfFieldClass) (rootScope : CtfScope)
    (rootFc : CtfFieldClass) (pos : List Int) (pathstr : String) (target : CtfFieldPath) : Prop :=
  ∃ ptokens, pathstrToPtokens pathstr = some ptokens ∧
    match getRootScopeFromAbsolutePathstr pathstr with
    | some scope => target.root = scope ∧ ∃ scopeFc, rootOf scope = some scopeFc ∧
        Spells scopeFc (ptokens.drop (absolutePathPrefixPtokenCounts scope)) target.path
    | none => target.root = rootScope ∧ RelativeSpelling rootFc pos ptokens target.path

/-- A spelled reference names a class that exists, through a path that takes -1
at every array or sequence. -/
theorem SpellsReference.reaches {rootOf : CtfScope → Option CtfFieldClass} {rootScope : CtfScope}
    {rootFc : CtfFieldClass} {pos : List Int} {pathstr : String} {target : CtfFieldPath}
    (spelled : SpellsReference rootOf rootScope rootFc pos pathstr target)
    (root : rootOf rootScope = some rootFc) (steps : ArraySteps rootFc pos) :
    ∃ targetRoot targetFc, rootOf target.root = some targetRoot ∧
      targetRoot.borrowFieldClassByPath target.path = some targetFc ∧ ArraySteps targetRoot target.path := by
  obtain ⟨ptokens, _, rule⟩ := spelled
  split at rule
  · obtain ⟨rootIs, scopeFc, found, spells⟩ := rule
    obtain ⟨targetFc, reached⟩ := spells.reaches
    exact ⟨scopeFc, targetFc, rootIs ▸ found, reached, spells.arraySteps⟩
  · obtain ⟨rootIs, k, ancestor, _, tail, atAncestor, _, pathIs, spells, _, _⟩ := rule
    obtain ⟨targetFc, reached⟩ := spells.reaches
    rw [pathIs]
    refine ⟨rootFc, targetFc, rootIs ▸ root, by simp [borrowFieldClassByPath_append, atAncestor, reached], ?_⟩
    exact arraySteps_append _ _ rootFc (arraySteps_take pos k rootFc steps) fun target found => by
      rw [atAncestor] at found
      cases found
      exact spells.arraySteps

/-- A target path found from a context at a node spells the reference. -/
theorem pathstrToFieldPath_spells {ctx : ResolveContext} {rootRef : RootClassRef} {rootFc : CtfFieldClass}
    {pos : List Int} {fc : CtfFieldClass} (node : AtNode ctx rootRef rootFc pos fc) {pathstr : String}
    {target : CtfFieldPath} (found : pathstrToFieldPath pathstr ctx = .ok target) :
    SpellsReference (borrowClassFromCtx ctx) ctx.rootScope rootFc pos pathstr target := by
  unfold pathstrToFieldPath at found
  split at found
  · cases found
  · rename_i ptokens lexed
    refine ⟨ptokens, lexed, ?_⟩
    split at found
    · rename_i relative
      rw [relative]
      simp only [relativePtokensToFieldPath, except_map_eq_ok] at found
      obtain ⟨path, search, rfl⟩ := found
      obtain ⟨k, frame, tail, below, atK, resolves, rfl, deeper⟩ :=
        relativePtokensToFieldPathFrom_ok ptokens ctx.fieldClassStack _ path (le_refl _) search
      rw [node.frame k, Option.bind_eq_some] at atK
      obtain ⟨ancestor, atAncestor, frameIs⟩ := atK
      obtain ⟨bound, atBound, rfl⟩ := Option.map_eq_some'.1 frameIs
      obtain ⟨spells, within⟩ := (ptokensToFieldPath_ok_iff _ _ _ _).1 resolves
      refine ⟨rfl, k, ancestor, bound, tail, atAncestor, atBound, ?_, spells, within, ?_⟩
      · simp only [List.map_take, node.indices]
      · intro k' ancestor' bound' above atAncestor' atBound' tail' spells' within'
        have atK' : ctx.fieldClassStack[k']? = some ⟨ancestor', bound'⟩ := by
          rw [node.frame k', atAncestor', Option.some_bind, atBound', Option.map_some']
        have below' : k' < ctx.fieldClassStack.length := by
          rw [← List.length_map ctx.fieldClassStack (·.index), node.indices]
          exact (List.getElem?_eq_some_iff.1 atBound').1
        have := deeper k' _ above below' atK'
        rw [(ptokensToFieldPath_ok_iff _ _ _ _).2 ⟨spells', within'⟩] at this
        cases this
    · rename_i scope absolute
      rw [absolute]
      simp only [absolutePtokensToFieldPath, except_map_eq_ok] at found
      obtain ⟨path, search, rfl⟩ := found
      split at search
      · split at search
        · rename_i scopeFc borrowed
          exact ⟨rfl, scopeFc, borrowed, (spells_of_ptokensToFieldPath _ _ _ _ _ search).1⟩
        · cases search
      · cases search

/-- The reading part of `resolve_sequence_or_variant_field_class` succeeds
exactly through its four steps. -/
theorem resolveSequenceOrVariantTarget_ok {fc : CtfFieldClass} {ctx : ResolveContext}
    {target : CtfFieldPath} {targetFc : CtfFieldClass}
    (found : resolveSequenceOrVariantTarget fc ctx = .ok (target, targetFc)) :
    ∃ pathstr, fc.reference = some pathstr ∧ pathstrToFieldPath pathstr ctx = .ok target ∧
      fieldPathToFieldClass target ctx = .ok (some targetFc) ∧
      validateTargetFieldPath target targetFc fc ctx = .ok () := by
  cases fc <;> simp only [resolveSequenceOrVariantTarget, bind, Except.bind, throw, throwThe,
    MonadExceptOf.throw, Except.pure, pure] at found
  all_goals first
    | cases found
    | (refine ⟨_, rfl, ?_⟩
       split at found
       · cases found
       · rename_i path located
         split at found
         · cases found
         · split at found
           · rename_i lookup
             split at found
             · cases found
             · rename_i valid
               simp only [Except.ok.injEq, Prod.mk.injEq] at found
               obtain ⟨rfl, rfl⟩ := found
               exact ⟨located, lookup, valid⟩
           · cases found)

/-- The reading part never fails an assertion at a sequence or variant of a
context at its node. -/
theorem resolveSequenceOrVariantTarget_ne_aborted {ctx : ResolveContext} {rootRef : RootClassRef}
    {rootFc : CtfFieldClass} {pos : List Int} {fc : CtfFieldClass} (node : AtNode ctx rootRef rootFc pos fc)
    (kind : fc.isSequenceOrVariant = true) : resolveSequenceOrVariantTarget fc ctx ≠ .error .aborted := by
  have lookup : ∀ pathstr target, pathstrToFieldPath pathstr ctx = .ok target →
      ∃ targetFc, fieldPathToFieldClass target ctx = .ok (some targetFc) := by
    intro pathstr target located
    obtain ⟨targetRoot, targetFc, root, reached, _⟩ :=
      (pathstrToFieldPath_spells node located).reaches node.borrowRoot node.steps
    exact ⟨targetFc, by simp [fieldPathToFieldClass, root, fieldPathToFieldClassLoop_eq, reached]⟩
  have checked : ∀ target targetFc, validateTargetFieldPath target targetFc fc ctx ≠ .error .aborted :=
    fun target targetFc => validateTargetFieldPath_ne_aborted target targetFc ctx kind
  intro aborted
  cases fc <;> simp [CtfFieldClass.isSequenceOrVariant] at kind
  all_goals
    simp only [resolveSequenceOrVariantTarget, bind, Except.bind, Except.pure, pure] at aborted
    split at aborted
    · rename_i located
      cases aborted
      exact pathstrToFieldPath_ne_aborted _ ctx located
    · rename_i target located
      obtain ⟨targetFc, found⟩ := lookup _ target located
      simp only [found] at aborted
      split at aborted
      · rename_i failed
        cases aborted
        exact checked target targetFc failed
      · cases aborted

/-- What the resolver establishes about the target `(target, targetFc)` it finds
for the sequence or variant `fc` at position `pos` below the root class
`rootFc` of scope `rootScope`, where `rootOf` gives the root class of each scope
of the node's layers: the checks of `validate_target_field_path`, the class the
target path reaches, and the reference rules. -/
structure FoundTarget (rootOf : CtfScope → Option CtfFieldClass) (rootScope : CtfScope)
    (rootFc : CtfFieldClass) (pos : List Int) (fc : CtfFieldClass) (target : CtfFieldPath)
    (targetFc : CtfFieldClass) : Prop where
  nonEmpty : target.path ≠ []
  scopeOrder : target.root.toNat ≤ rootScope.toNat
  before : target.root = rootScope → ∃ (k : Nat) (x y : Int), target.path.take k = pos.take k ∧
    target.path[k]? = some x ∧ pos[k]? = some y ∧ x < y
  reaches : ∃ targetRoot, rootOf target.root = some targetRoot ∧
    targetRoot.borrowFieldClassByPath target.path = some targetFc ∧ ArraySteps targetRoot target.path
  typed : validateTargetFieldClass targetFc fc = .ok ()
  spells : ∃ pathstr, fc.reference = some pathstr ∧ SpellsReference rootOf rootScope rootFc pos pathstr target

/-- A target found from a context at its node has every property the resolver
checks, and spells the reference. -/
theorem resolveSequenceOrVariantTarget_found {ctx : ResolveContext} {rootRef : RootClassRef}
    {rootFc : CtfFieldClass} {pos : List Int} {fc : CtfFieldClass} (node : AtNode ctx rootRef rootFc pos fc)
    {target : CtfFieldPath} {targetFc : CtfFieldClass}
    (found : resolveSequenceOrVariantTarget fc ctx = .ok (target, targetFc)) :
    FoundTarget (borrowClassFromCtx ctx) ctx.rootScope rootFc pos fc target targetFc := by
  obtain ⟨pathstr, reference, located, lookup, valid⟩ := resolveSequenceOrVariantTarget_ok found
  obtain ⟨nonEmpty, order, before, typed⟩ := validateTargetFieldPath_ok valid
  rw [node.stackFieldPath] at order before
  have spelled := pathstrToFieldPath_spells node located
  obtain ⟨targetRoot, reachedFc, root, reached, steps⟩ := spelled.reaches node.borrowRoot node.steps
  have same : reachedFc = targetFc := by
    simpa [fieldPathToFieldClass, root, fieldPathToFieldClassLoop_eq, reached] using lookup
  subst same
  exact ⟨nonEmpty, order, before, ⟨targetRoot, root, reached, steps⟩, typed, ⟨pathstr, reference, spelled⟩⟩

theorem borrowFieldClassByPath_congr {fc fc' node : CtfFieldClass} {path : List Int}
    (same : fc.eraseTargets = fc'.eraseTargets) (reached : fc.borrowFieldClassByPath path = some node) :
    ∃ node', fc'.borrowFieldClassByPath path = some node' ∧ node.eraseTargets = node'.eraseTargets := by
  have erased := borrowFieldClassByPath_eraseTargets path fc
  rw [same, borrowFieldClassByPath_eraseTargets, reached] at erased
  obtain ⟨node', found, sameNode⟩ := Option.map_eq_some'.mp erased
  exact ⟨node', found, sameNode.symm⟩

@[simp] theorem reference_eraseTargets (fc : CtfFieldClass) : fc.eraseTargets.reference = fc.reference := by
  cases fc <;> rfl

/-- A valid target is an integer or an enumeration, which erasing leaves alone. -/
theorem eq_of_eraseTargets_eq_of_validate {targetFc curFc fc : CtfFieldClass}
    (typed : validateTargetFieldClass targetFc curFc = .ok ()) (same : fc.eraseTargets = targetFc.eraseTargets) :
    fc = targetFc := by
  rw [eraseTargets_of_validateTargetFieldClass typed] at same
  cases curFc <;> cases targetFc <;>
    first | exact eq_of_eraseTargets_eq_int same | exact eq_of_eraseTargets_eq_enum same | cases typed

theorem RelativeSpelling.congr {rootFc rootFc' : CtfFieldClass} {pos : List Int} {ptokens : List String}
    {path : List Int} (spelled : RelativeSpelling rootFc pos ptokens path)
    (same : rootFc.eraseTargets = rootFc'.eraseTargets) : RelativeSpelling rootFc' pos ptokens path := by
  obtain ⟨k, ancestor, bound, tail, atAncestor, boundAt, rfl, spells, within, innermost⟩ := spelled
  obtain ⟨ancestor', atAncestor', sameAncestor⟩ := borrowFieldClassByPath_congr same atAncestor
  refine ⟨k, ancestor', bound, tail, atAncestor', boundAt, rfl, spells.congr sameAncestor, within, ?_⟩
  intro k' deeper' bound' deeper found' boundAt' tail' spells'
  obtain ⟨deeperFc, found, sameDeeper⟩ := borrowFieldClassByPath_congr same.symm found'
  exact innermost k' deeperFc bound' deeper found boundAt' tail' (spells'.congr sameDeeper)

theorem SpellsReference.congr {rootOf rootOf' : CtfScope → Option CtfFieldClass} {rootScope : CtfScope}
    {rootFc rootFc' : CtfFieldClass} {pos : List Int} {pathstr : String} {target : CtfFieldPath}
    (spelled : SpellsReference rootOf rootScope rootFc pos pathstr target)
    (agree : (rootOf target.root).map eraseTargets = (rootOf' target.root).map eraseTargets)
    (same : rootFc.eraseTargets = rootFc'.eraseTargets) :
    SpellsReference rootOf' rootScope rootFc' pos pathstr target := by
  obtain ⟨ptokens, lexed, rule⟩ := spelled
  refine ⟨ptokens, lexed, ?_⟩
  cases absolute : getRootScopeFromAbsolutePathstr pathstr with
  | some scope =>
      simp only [absolute] at rule ⊢
      obtain ⟨rootIs, scopeFc, root, spells⟩ := rule
      rw [rootIs, root] at agree
      obtain ⟨scopeFc', root', sameScope⟩ := Option.map_eq_some'.mp agree.symm
      exact ⟨rootIs, scopeFc', root', spells.congr sameScope.symm⟩
  | none =>
      simp only [absolute] at rule ⊢
      exact ⟨rule.1, rule.2.congr same⟩

/-- The facts read the root classes of scopes up to the node's own, the root
class and the node only through what erasing keeps. -/
theorem FoundTarget.transfer {rootOf rootOf' : CtfScope → Option CtfFieldClass} {rootScope : CtfScope}
    {rootFc rootFc' : CtfFieldClass} {pos : List Int} {fc fc' : CtfFieldClass} {target : CtfFieldPath}
    {targetFc : CtfFieldClass} (facts : FoundTarget rootOf rootScope rootFc pos fc target targetFc)
    (agree : ∀ scope, scope.toNat ≤ rootScope.toNat →
      (rootOf scope).map eraseTargets = (rootOf' scope).map eraseTargets)
    (sameRoot : rootFc.eraseTargets = rootFc'.eraseTargets) (sameNode : fc.eraseTargets = fc'.eraseTargets) :
    FoundTarget rootOf' rootScope rootFc' pos fc' target targetFc := by
  obtain ⟨nonEmpty, order, before, ⟨targetRoot, root, reached, steps⟩, typed, ⟨pathstr, reference, spelled⟩⟩ :=
    facts
  have agreeTarget := agree target.root order
  rw [root] at agreeTarget
  obtain ⟨targetRoot', root', sameTargetRoot⟩ := Option.map_eq_some'.mp agreeTarget.symm
  obtain ⟨targetFc', reached', sameTarget⟩ := borrowFieldClassByPath_congr sameTargetRoot.symm reached
  have typed' : validateTargetFieldClass targetFc fc' = .ok () := by
    rw [← validateTargetFieldClass_eraseTargets, ← sameNode, validateTargetFieldClass_eraseTargets]
    exact typed
  refine ⟨nonEmpty, order, before, ⟨targetRoot', root', ?_, ?_⟩, typed', ⟨pathstr, ?_, spelled.congr (agree _ order) sameRoot⟩⟩
  · rw [reached', eq_of_eraseTargets_eq_of_validate typed sameTarget.symm]
  · rwa [← arraySteps_eraseTargets, sameTargetRoot, arraySteps_eraseTargets]
  · rw [← reference_eraseTargets, ← sameNode, reference_eraseTargets, reference]

end Btrace.Ctf
