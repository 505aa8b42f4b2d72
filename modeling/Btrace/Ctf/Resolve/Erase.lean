import Btrace.Ctf.Navigation
import Btrace.Ctf.Resolve.Driver

set_option autoImplicit false

/- The reading part of the resolver never reads a stored target: every lookup
goes through names, shapes, reference strings, indices and translated flags.
Stated as invariance under erasing the stored targets of everything the context
holds, this is what lets a run be replayed on its own output. -/
namespace Btrace.Ctf

open CtfFieldClass

def FieldClassStackFrame.eraseTargets (frame : FieldClassStackFrame) : FieldClassStackFrame :=
  ⟨frame.fc.eraseTargets, frame.index⟩

def CtfEventClass.eraseTargets (ec : CtfEventClass) : CtfEventClass :=
  ec.mapRoots CtfFieldClass.eraseTargets

def CtfStreamClass.eraseTargets (sc : CtfStreamClass) : CtfStreamClass :=
  sc.mapRoots CtfFieldClass.eraseTargets

/-- The context with every stored target erased, in the trace class, in the
current stream and event classes and in the stack frames. -/
def ResolveContext.eraseTargets (ctx : ResolveContext) : ResolveContext :=
  { ctx with
    tc := ctx.tc.eraseTargets
    sc := ctx.sc.map CtfStreamClass.eraseTargets
    ec := ctx.ec.map CtfEventClass.eraseTargets
    fieldClassStack := ctx.fieldClassStack.map FieldClassStackFrame.eraseTargets }

namespace ResolveContext

@[simp] theorem eraseTargets_scopes (ctx : ResolveContext) : ctx.eraseTargets.scopes = ctx.scopes := rfl

@[simp] theorem eraseTargets_rootScope (ctx : ResolveContext) :
    ctx.eraseTargets.rootScope = ctx.rootScope := rfl

@[simp] theorem eraseTargets_fieldClassStack (ctx : ResolveContext) :
    ctx.eraseTargets.fieldClassStack = ctx.fieldClassStack.map FieldClassStackFrame.eraseTargets := rfl

theorem borrowClassFromCtx_eraseTargets (ctx : ResolveContext) (scope : CtfScope) :
    borrowClassFromCtx ctx.eraseTargets scope = (borrowClassFromCtx ctx scope).map CtfFieldClass.eraseTargets := by
  simp [borrowClassFromCtx, eraseTargets, CtfTraceClass.rootClass_eraseTargets, Option.map_bind,
    Function.comp_def]

theorem absoluteRootAvailable_eraseTargets (ctx : ResolveContext) (scope : CtfScope) :
    absoluteRootAvailable ctx.eraseTargets scope = absoluteRootAvailable ctx scope := by
  cases scope <;>
    simp [absoluteRootAvailable, eraseTargets, CtfTraceClass.eraseTargets, CtfTraceClass.mapRoots,
      CtfStreamClass.eraseTargets, CtfStreamClass.mapRoots, CtfEventClass.eraseTargets,
      CtfEventClass.mapRoots, Option.any]
  all_goals first | (cases ctx.sc <;> rfl) | (cases ctx.ec <;> rfl)

theorem getCtxStackFieldPath_eraseTargets (ctx : ResolveContext) :
    getCtxStackFieldPath ctx.eraseTargets = getCtxStackFieldPath ctx := by
  simp [getCtxStackFieldPath, Function.comp_def, FieldClassStackFrame.eraseTargets]

end ResolveContext

mutual
theorem ptokensToFieldPath_eraseTargets (srcIndex : Int) :
    ∀ (ptokens : List String) (fc : CtfFieldClass) (firstLevelDone : Bool),
      ptokensToFieldPath srcIndex ptokens fc.eraseTargets firstLevelDone =
        ptokensToFieldPath srcIndex ptokens fc firstLevelDone
  | [], fc, _ => by cases fc <;> rfl
  | _ :: _, .int _, _ | _ :: _, .enum _, _ | _ :: _, .float, _ | _ :: _, .string, _ => rfl
  | ftName :: rest, .array elemFc _, firstLevelDone
  | ftName :: rest, .sequence elemFc _ _ _ _, firstLevelDone =>
      congrArg ((-1 :: ·) <$> ·) (ptokensToFieldPath_eraseTargets srcIndex (ftName :: rest) elemFc firstLevelDone)
  | ftName :: rest, .struct members, firstLevelDone
  | ftName :: rest, .variant _ _ _ members, firstLevelDone =>
      ptokensToFieldPathInMembers_eraseTargets srcIndex ftName rest firstLevelDone members 0

theorem ptokensToFieldPathInMembers_eraseTargets (srcIndex : Int) (ftName : String)
    (rest : List String) (firstLevelDone : Bool) :
    ∀ (members : List (String × CtfFieldClass)) (childIndex : Nat),
      ptokensToFieldPathInMembers srcIndex ftName rest firstLevelDone
          (mapNodesMembers clearTargets members) childIndex =
        ptokensToFieldPathInMembers srcIndex ftName rest firstLevelDone members childIndex
  | [], _ => rfl
  | (origName, childFc) :: members, childIndex => by
      simp only [mapNodesMembers, ptokensToFieldPathInMembers]
      rw [ptokensToFieldPathInMembers_eraseTargets srcIndex ftName rest firstLevelDone members (childIndex + 1)]
      exact congrArg (fun r => if origName = ftName then
        (if (childIndex : Int) > srcIndex ∧ firstLevelDone = false then .error .failed
          else ((childIndex : Int) :: ·) <$> r) else _)
        (ptokensToFieldPath_eraseTargets srcIndex rest childFc true)
end

theorem stitchHead_eraseTargets :
    ∀ (stack : List FieldClassStackFrame) (parentPos : Nat),
      stitchHead (stack.map FieldClassStackFrame.eraseTargets) parentPos = stitchHead stack parentPos
  | [], _ => rfl
  | _ :: _, 0 => rfl
  | frame :: frames, parentPos + 1 => by
      simp only [List.map_cons, stitchHead, stitchHead_eraseTargets frames parentPos,
        FieldClassStackFrame.eraseTargets]

theorem fieldClassStackAt_eraseTargets (stack : List FieldClassStackFrame) (index : Nat) :
    fieldClassStackAt (stack.map FieldClassStackFrame.eraseTargets) index =
      (fieldClassStackAt stack index).map FieldClassStackFrame.eraseTargets := by
  unfold fieldClassStackAt
  cases found : stack[index]? <;> simp [found, Except.map]

theorem relativePtokensToFieldPathFrom_eraseTargets (ptokens : List String)
    (stack : List FieldClassStackFrame) :
    ∀ count : Nat, relativePtokensToFieldPathFrom ptokens (stack.map FieldClassStackFrame.eraseTargets) count =
      relativePtokensToFieldPathFrom ptokens stack count
  | 0 => rfl
  | parentPos + 1 => by
      simp only [relativePtokensToFieldPathFrom, fieldClassStackAt_eraseTargets, stitchHead_eraseTargets,
        relativePtokensToFieldPathFrom_eraseTargets ptokens stack parentPos]
      cases fieldClassStackAt stack parentPos with
      | error e => rfl
      | ok parent =>
          simp only [Except.map, FieldClassStackFrame.eraseTargets, ptokensToFieldPath_eraseTargets]

theorem pathstrToFieldPath_eraseTargets (pathstr : String) (ctx : ResolveContext) :
    pathstrToFieldPath pathstr ctx.eraseTargets = pathstrToFieldPath pathstr ctx := by
  unfold pathstrToFieldPath relativePtokensToFieldPath absolutePtokensToFieldPath
  simp only [ResolveContext.eraseTargets_fieldClassStack, List.length_map,
    relativePtokensToFieldPathFrom_eraseTargets, ResolveContext.absoluteRootAvailable_eraseTargets,
    ResolveContext.borrowClassFromCtx_eraseTargets, ResolveContext.eraseTargets_rootScope]
  split
  · rfl
  · split
    · rfl
    · split
      · cases borrowClassFromCtx ctx _ <;> simp [ptokensToFieldPath_eraseTargets]
      · rfl

theorem fieldPathToFieldClassLoop_eraseTargets :
    ∀ (path : List Int) (fc : CtfFieldClass),
      fieldPathToFieldClassLoop path fc.eraseTargets = (fieldPathToFieldClassLoop path fc).map eraseTargets
  | [], _ => rfl
  | childIndex :: path, fc => by
      simp only [fieldPathToFieldClassLoop, compoundBorrowFieldClassByIndex_eraseTargets]
      cases fc.compoundBorrowFieldClassByIndex childIndex with
      | none => rfl
      | some childFc => exact fieldPathToFieldClassLoop_eraseTargets path childFc

theorem fieldPathToFieldClass_eraseTargets (fieldPath : CtfFieldPath) (ctx : ResolveContext) :
    fieldPathToFieldClass fieldPath ctx.eraseTargets =
      (fieldPathToFieldClass fieldPath ctx).map (Option.map eraseTargets) := by
  unfold fieldPathToFieldClass
  rw [ResolveContext.borrowClassFromCtx_eraseTargets]
  cases borrowClassFromCtx ctx fieldPath.root with
  | none => rfl
  | some fc =>
      simp only [Option.map_some', fieldPathToFieldClassLoop_eraseTargets]
      cases fieldPathToFieldClassLoop fieldPath.path fc <;> rfl

theorem validateTargetFieldClass_eraseTargets (targetFc curFc : CtfFieldClass) :
    validateTargetFieldClass targetFc.eraseTargets curFc.eraseTargets =
      validateTargetFieldClass targetFc curFc := by
  cases curFc <;> cases targetFc <;> rfl

/-- A target that passes the type check is an integer or an enumeration, which
erasing leaves as it is. -/
theorem eraseTargets_of_validateTargetFieldClass {targetFc curFc : CtfFieldClass}
    (valid : validateTargetFieldClass targetFc curFc = .ok ()) : targetFc.eraseTargets = targetFc := by
  cases curFc <;> cases targetFc <;> first | rfl | cases valid

theorem validateTargetFieldPath_eraseTargets (targetFieldPath : CtfFieldPath)
    (targetFc curFc : CtfFieldClass) (ctx : ResolveContext) :
    validateTargetFieldPath targetFieldPath targetFc.eraseTargets curFc.eraseTargets ctx.eraseTargets =
      validateTargetFieldPath targetFieldPath targetFc curFc ctx := by
  simp only [validateTargetFieldPath, ResolveContext.getCtxStackFieldPath_eraseTargets,
    validateTargetFieldClass_eraseTargets]



theorem validateTargetFieldClass_of_validateTargetFieldPath {targetFieldPath : CtfFieldPath}
    {targetFc curFc : CtfFieldClass} {ctx : ResolveContext}
    (valid : validateTargetFieldPath targetFieldPath targetFc curFc ctx = .ok ()) :
    validateTargetFieldClass targetFc curFc = .ok () := by
  simp only [validateTargetFieldPath, bind, Except.bind, pure, Except.pure] at valid
  split_ifs at valid <;> repeat (first | exact valid | split at valid | cases valid)

theorem resolveSequenceOrVariantTarget_eraseTargets (fc : CtfFieldClass) (ctx : ResolveContext) :
    resolveSequenceOrVariantTarget fc.eraseTargets ctx.eraseTargets = resolveSequenceOrVariantTarget fc ctx := by
  have sameCheck : ∀ targetFieldPath targetFc,
      validateTargetFieldPath targetFieldPath targetFc.eraseTargets fc.eraseTargets ctx.eraseTargets =
        validateTargetFieldPath targetFieldPath targetFc fc ctx :=
    fun targetFieldPath targetFc => validateTargetFieldPath_eraseTargets targetFieldPath targetFc fc ctx
  have sameTarget : ∀ targetFieldPath targetFc,
      validateTargetFieldPath targetFieldPath targetFc fc ctx = .ok () → targetFc.eraseTargets = targetFc :=
    fun _ _ valid => eraseTargets_of_validateTargetFieldClass (validateTargetFieldClass_of_validateTargetFieldPath valid)
  -- the other kinds fail before reading the context; rewriting them to the
  -- failure spares the kernel a comparison of the two contexts
  cases fc <;>
    simp only [resolveSequenceOrVariantTarget, eraseTargets_int, eraseTargets_enum, eraseTargets_float,
      eraseTargets_string, eraseTargets_struct, eraseTargets_array, eraseTargets_sequence, eraseTargets_variant,
      bind, Except.bind, throw, throwThe, MonadExceptOf.throw, pure, Except.pure, pathstrToFieldPath_eraseTargets,
      fieldPathToFieldClass_eraseTargets] at sameCheck sameTarget ⊢
  all_goals
    split <;> try rfl
    rename_i targetFieldPath _
    cases fieldPathToFieldClass targetFieldPath ctx with
    | error e => rfl
    | ok found =>
        cases found with
        | none => rfl
        | some targetFc =>
            simp only [Except.map, Option.map_some', sameCheck]
            split
            · rfl
            · rename_i valid; simp [sameTarget _ _ valid]

end Btrace.Ctf
