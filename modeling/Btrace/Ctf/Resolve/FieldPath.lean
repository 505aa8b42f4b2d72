import Btrace.Ctf.Resolve.Context

set_option autoImplicit false

/- From a reference string to a validated target field path: the token walk,
the absolute and relative searches, the walk back from a field path to its
class, and `validate_target_field_path`. -/
namespace Btrace.Ctf

/-- `INT64_MAX`, the source index of a search that has no sibling bound. -/
def int64Max : Int := 9223372036854775807

mutual
/-- The loop of `ptokens_to_field_path`. Each iteration moves `fc` to a child,
so the loop is a recursion on the class. An array or sequence is entered at
index -1 without consuming a token; a structure or variant consumes one in
`ptokensToFieldPathInMembers`; any other class has no member of that name. -/
def ptokensToFieldPath (srcIndex : Int) :
    List String → CtfFieldClass → Bool → Except ResolveError (List Int)
  | [], _, _ => .ok []
  | ptokens@(_ :: _), .array elemFc _, firstLevelDone =>
      (-1 :: ·) <$> ptokensToFieldPath srcIndex ptokens elemFc firstLevelDone
  | ptokens@(_ :: _), .sequence elemFc _ _ _ _, firstLevelDone =>
      (-1 :: ·) <$> ptokensToFieldPath srcIndex ptokens elemFc firstLevelDone
  | ftName :: rest, .struct members, firstLevelDone =>
      ptokensToFieldPathInMembers srcIndex ftName rest firstLevelDone members 0
  | ftName :: rest, .variant _ _ _ options, firstLevelDone =>
      ptokensToFieldPathInMembers srcIndex ftName rest firstLevelDone options 0
  | _ :: _, _, _ => .error .failed

/-- One iteration at a structure or variant:
`ctf_field_class_compound_get_field_class_index_from_orig_name` finds the first
member whose original name is the token, the index must not pass `srcIndex`
before the first level is done, and the loop goes on in that member. -/
def ptokensToFieldPathInMembers (srcIndex : Int) (ftName : String) (rest : List String)
    (firstLevelDone : Bool) : List (String × CtfFieldClass) → Nat → Except ResolveError (List Int)
  | [], _ => .error .failed
  | (origName, childFc) :: members, childIndex =>
      if origName = ftName then
        if (childIndex : Int) > srcIndex ∧ firstLevelDone = false then .error .failed
        else ((childIndex : Int) :: ·) <$> ptokensToFieldPath srcIndex rest childFc true
      else ptokensToFieldPathInMembers srcIndex ftName rest firstLevelDone members (childIndex + 1)
end

/-- The translated-layer preconditions of `absolute_ptokens_to_field_path`:
the layer owning the scope is current and not translated. -/
def absoluteRootAvailable (ctx : ResolveContext) : CtfScope → Bool
  | .packetHeader => !ctx.tc.isTranslated
  | .packetContext | .eventHeader | .eventCommonContext => ctx.sc.any (!·.isTranslated)
  | .eventSpecificContext | .eventPayload => ctx.ec.any (!·.isTranslated)

/-- `absolute_ptokens_to_field_path`: skip the prefix tokens and walk the rest
from the scope's root class, with no sibling bound. -/
def absolutePtokensToFieldPath (ptokens : List String) (root : CtfScope)
    (ctx : ResolveContext) : Except ResolveError (List Int) :=
  if absoluteRootAvailable ctx root then
    match borrowClassFromCtx ctx root with
    | some fc => ptokensToFieldPath int64Max (ptokens.drop (absolutePathPrefixPtokenCounts root)) fc false
    | none => .error .failed
  else .error .failed

/-- The head-stitching loop of `relative_ptokens_to_field_path`: the indices of
the frames from the bottom up to the one holding `parent_class`, at
`parentPos`. The frames hold distinct classes (each a proper descendant of the
one below), so the pointer test `cur_class == parent_class` holds exactly at
`parentPos`; every step reads a frame through `field_class_stack_at`. -/
def stitchHead : List FieldClassStackFrame → Nat → Except ResolveError (List Int)
  | [], _ => .error .aborted
  | _ :: _, 0 => .ok []
  | frame :: frames, parentPos + 1 => (frame.index :: ·) <$> stitchHead frames parentPos

/-- The search loop of `relative_ptokens_to_field_path` over the frames below
`count` (that is, from `parent_pos_in_stack = count - 1` down to 0): the first
parent from which the tokens resolve, with its child index as the source index,
gives the tail, stitched after the head. -/
def relativePtokensToFieldPathFrom (ptokens : List String) (stack : List FieldClassStackFrame) :
    Nat → Except ResolveError (List Int)
  | 0 => .error .failed
  | parentPos + 1 =>
      match fieldClassStackAt stack parentPos with
      | .error e => .error e
      | .ok parent =>
          match ptokensToFieldPath parent.index ptokens parent.fc false with
          | .ok tail => (· ++ tail) <$> stitchHead stack parentPos
          | .error .failed => relativePtokensToFieldPathFrom ptokens stack parentPos
          | .error .aborted => .error .aborted

def relativePtokensToFieldPath (ptokens : List String) (ctx : ResolveContext) :
    Except ResolveError (List Int) :=
  relativePtokensToFieldPathFrom ptokens ctx.fieldClassStack ctx.fieldClassStack.length

/-- `pathstr_to_field_path`. -/
def pathstrToFieldPath (pathstr : String) (ctx : ResolveContext) :
    Except ResolveError CtfFieldPath :=
  match pathstrToPtokens pathstr with
  | none => .error .failed
  | some ptokens =>
      match getRootScopeFromAbsolutePathstr pathstr with
      | none => (⟨ctx.rootScope, ·⟩) <$> relativePtokensToFieldPath ptokens ctx
      | some rootScope => (⟨rootScope, ·⟩) <$> absolutePtokensToFieldPath ptokens rootScope ctx

/-- The loop of `field_path_to_field_class`, which asserts every child exists. -/
def fieldPathToFieldClassLoop : List Int → CtfFieldClass → Except ResolveError CtfFieldClass
  | [], fc => .ok fc
  | childIndex :: path, fc =>
      match fc.compoundBorrowFieldClassByIndex childIndex with
      | some childFc => fieldPathToFieldClassLoop path childFc
      | none => .error .aborted

/-- `field_path_to_field_class`: null when the root class is not available. -/
def fieldPathToFieldClass (fieldPath : CtfFieldPath) (ctx : ResolveContext) :
    Except ResolveError (Option CtfFieldClass) :=
  match borrowClassFromCtx ctx fieldPath.root with
  | some fc => some <$> fieldPathToFieldClassLoop fieldPath.path fc
  | none => .ok none

/-- `get_ctx_stack_field_path`. -/
def getCtxStackFieldPath (ctx : ResolveContext) : CtfFieldPath :=
  ⟨ctx.rootScope, ctx.fieldClassStack.map (·.index)⟩

/-- The loop of `get_field_paths_lca_index`: -1 when one path ends before the
two differ. -/
def getFieldPathsLcaIndexLoop : List Int → List Int → Int → Int
  | targetIndex :: path1, ctxIndex :: path2, lcaIndex =>
      if targetIndex ≠ ctxIndex then lcaIndex
      else getFieldPathsLcaIndexLoop path1 path2 (lcaIndex + 1)
  | _, _, _ => -1

/-- `get_field_paths_lca_index`, which asserts that both roots are equal. -/
def getFieldPathsLcaIndex (fieldPath1 fieldPath2 : CtfFieldPath) : Except ResolveError Int :=
  if fieldPath1.root = fieldPath2.root then
    .ok (getFieldPathsLcaIndexLoop fieldPath1.path fieldPath2.path 0)
  else .error .aborted

/-- Modelled from the spec: `ctf_field_path_borrow_index_by_index` of
`ctf-meta.hpp`, the index at a position of a field path; it asserts that the
position is below the path's length. -/
def ctfFieldPathBorrowIndexByIndex (fieldPath : CtfFieldPath) (index : Nat) :
    Except ResolveError Int :=
  match fieldPath.path[index]? with
  | some childIndex => .ok childIndex
  | none => .error .aborted

/-- The type check of `validate_target_field_path`, on `ctx->cur_fc`. -/
def validateTargetFieldClass (targetFc curFc : CtfFieldClass) : Except ResolveError Unit :=
  match curFc, targetFc with
  | .variant _ _ _ _, .enum _ => .ok ()
  | .variant _ _ _ _, _ => .error .failed
  | .sequence _ _ _ _ _, _ =>
      match targetFc.asInt with
      | some intFc => if intFc.isSigned then .error .failed else .ok ()
      | none => .error .failed
  | _, _ => .error .aborted

/-- `validate_target_field_path`: the target is not a root, its scope does not
come after the source's, within one scope the two paths split and the target
comes first at the split, and the target has the type the source needs. -/
def validateTargetFieldPath (targetFieldPath : CtfFieldPath) (targetFc curFc : CtfFieldClass)
    (ctx : ResolveContext) : Except ResolveError Unit := do
  let ctxFieldPath := getCtxStackFieldPath ctx
  if targetFieldPath.path.length = 0 then throw .failed
  if targetFieldPath.root.toNat > ctxFieldPath.root.toNat then throw .failed
  if targetFieldPath.root = ctxFieldPath.root then
    let lcaIndex ← getFieldPathsLcaIndex targetFieldPath ctxFieldPath
    if lcaIndex < 0 then throw .failed
    let targetIndex ← ctfFieldPathBorrowIndexByIndex targetFieldPath lcaIndex.toNat
    let ctxIndex ← ctfFieldPathBorrowIndexByIndex ctxFieldPath lcaIndex.toNat
    if targetIndex ≥ ctxIndex then throw .failed
  validateTargetFieldClass targetFc curFc

end Btrace.Ctf
