import Mathlib.Logic.Relation
import Btrace.Ctf.Resolve.Spelling

set_option autoImplicit false

/- The `while (cur_ptoken)` loop of `ptokens_to_field_path` as the code runs it:
a state of the loop's locals, one iteration as a step, and the loop as a run of
steps with fuel. Every iteration moves `fc` to a child, so the run ends within
the class's height and computes the recursive `ptokensToFieldPath`; a step that
consumes no token (an array or sequence) still lowers the height, so the pair
(tokens left, height) drops lexicographically at every iteration
(`ptokensToFieldPathLoop_terminates`). -/
namespace Btrace.Ctf

open CtfFieldClass Relation

namespace CtfFieldClass

/-- The member loop of `ctf_field_class_compound_get_field_class_index_from_orig_name`,
from member `index` on: the index of the first member of that original name,
or -1. -/
def indexFromOrigName (origName : String) : List (String × CtfFieldClass) → Nat → Int
  | [], _ => -1
  | (name, _) :: members, index =>
      if name = origName then index else indexFromOrigName origName members (index + 1)

/-- Modelled from the spec: `ctf_field_class_compound_get_field_class_index_from_orig_name`
of `ctf-meta.hpp`, which is not in the excerpt: -1 for a class that is not a
structure or variant. -/
def compoundGetFieldClassIndexFromOrigName : CtfFieldClass → String → Int
  | .struct members, origName => indexFromOrigName origName members 0
  | .variant _ _ _ options, origName => indexFromOrigName origName options 0
  | .int _, _ | .enum _, _ | .float, _ | .string, _ | .array _ _, _ | .sequence _ _ _ _ _, _ => -1

mutual
/-- The height of a class tree: one more than its highest child at a compound
class, 0 at a leaf. -/
def height : CtfFieldClass → Nat
  | .struct members => heightMembers members + 1
  | .variant _ _ _ options => heightMembers options + 1
  | .array elemFc _ => height elemFc + 1
  | .sequence elemFc _ _ _ _ => height elemFc + 1
  | .int _ | .enum _ | .float | .string => 0

def heightMembers : List (String × CtfFieldClass) → Nat
  | [] => 0
  | (_, fc) :: members => max (height fc) (heightMembers members)
end

/-- How many arrays and sequences are nested at the top of the class: the -1
steps the token walk takes from it before it needs a name. -/
def arrayNesting : CtfFieldClass → Nat
  | .array elemFc _ => arrayNesting elemFc + 1
  | .sequence elemFc _ _ _ _ => arrayNesting elemFc + 1
  | .int _ | .enum _ | .float | .string | .struct _ | .variant _ _ _ _ => 0

theorem height_le_heightMembers {name : String} {fc : CtfFieldClass} :
    ∀ {members : List (String × CtfFieldClass)}, (name, fc) ∈ members → fc.height ≤ heightMembers members
  | _ :: _, .head _ => by simp only [heightMembers]; omega
  | _ :: _, .tail _ mem => by
      have := height_le_heightMembers mem
      simp only [heightMembers]
      omega

theorem height_le_of_borrowMember {index : Int} {members : List (String × CtfFieldClass)}
    {childFc : CtfFieldClass} (found : borrowMember index members = some childFc) :
    childFc.height ≤ heightMembers members := by
  simp only [borrowMember] at found
  split_ifs at found
  obtain ⟨⟨name, c⟩, mem, rfl⟩ := Option.map_eq_some'.1 found
  exact height_le_heightMembers (List.mem_iff_getElem?.2 ⟨_, mem⟩)

/-- A child is lower than its parent. -/
theorem height_lt_of_compoundBorrow {fc childFc : CtfFieldClass} {index : Int}
    (found : fc.compoundBorrowFieldClassByIndex index = some childFc) : childFc.height < fc.height := by
  cases fc with
  | struct members | variant _ _ _ members =>
      exact Nat.lt_succ_of_le (height_le_of_borrowMember found)
  | array elemFc _ | sequence elemFc _ _ _ _ =>
      cases Option.some.inj found
      exact Nat.lt_succ_self _
  | int _ | enum _ | float | string => cases found

theorem arrayNesting_of_compoundBorrow {fc childFc : CtfFieldClass} {index : Int}
    (nested : fc.isArrayOrSequence) (found : fc.compoundBorrowFieldClassByIndex index = some childFc) :
    fc.arrayNesting = childFc.arrayNesting + 1 := by
  cases fc <;> simp_all [isArrayOrSequence, compoundBorrowFieldClassByIndex, arrayNesting]

theorem indexFromOrigName_of_firstMember {name : String} :
    ∀ (members : List (String × CtfFieldClass)) (index j : Nat) (childFc : CtfFieldClass),
      FirstMember members name j childFc → indexFromOrigName name members index = ((index + j : Nat) : Int)
  | [], _, _, _, first => by simp [FirstMember] at first
  | (origName, c) :: members, index, 0, childFc, first => by
      simp only [FirstMember, List.getElem?_cons_zero, Option.some.injEq, Prod.mk.injEq] at first
      simp [indexFromOrigName, first.1.1]
  | (origName, c) :: members, index, j + 1, childFc, first => by
      have differs : origName ≠ name := by simpa using first.2 0 (by omega)
      rw [indexFromOrigName, if_neg differs, indexFromOrigName_of_firstMember members (index + 1) j childFc
        ⟨by simpa using first.1, fun i below => by simpa using first.2 (i + 1) (by omega)⟩]
      simp only [Nat.add_assoc, Nat.add_comm 1 j]

theorem indexFromOrigName_of_absent {name : String} :
    ∀ (members : List (String × CtfFieldClass)) (index : Nat),
      (∀ j childFc, ¬ FirstMember members name j childFc) → indexFromOrigName name members index = -1
  | [], _, _ => rfl
  | (origName, childFc) :: members, index, absent => by
      have differs : origName ≠ name := fun same => absent 0 childFc ⟨by simp [same], by simp⟩
      rw [indexFromOrigName, if_neg differs]
      exact indexFromOrigName_of_absent members (index + 1) fun j c first => absent (j + 1) c
        ⟨by simpa using first.1, fun i below => by
          cases i with
          | zero => simpa using differs
          | succ i => simpa using first.2 i (by omega)⟩

end CtfFieldClass

/-- The member search of one iteration, read through the index lookup the loop
makes: what `ptokensToFieldPathInMembers` does in one call. -/
theorem ptokensToFieldPathInMembers_eq_index (srcIndex : Int) (ftName : String) (rest : List String)
    (firstLevelDone : Bool) (members : List (String × CtfFieldClass)) :
    ptokensToFieldPathInMembers srcIndex ftName rest firstLevelDone members 0 =
      if indexFromOrigName ftName members 0 < 0 then .error .failed
      else if indexFromOrigName ftName members 0 > srcIndex ∧ firstLevelDone = false then .error .failed
      else match borrowMember (indexFromOrigName ftName members 0) members with
        | some childFc =>
            (indexFromOrigName ftName members 0 :: ·) <$> ptokensToFieldPath srcIndex rest childFc true
        | none => .error .aborted := by
  by_cases found : ∃ j childFc, FirstMember members ftName j childFc
  · obtain ⟨j, childFc, first⟩ := found
    rw [indexFromOrigName_of_firstMember members 0 j childFc first,
      ptokensToFieldPathInMembers_of_firstMember srcIndex ftName rest firstLevelDone members 0 j childFc first]
    have named : ¬ ((j : Int) < 0) := by omega
    simp [named, first.borrowMember_eq]
  · push_neg at found
    rw [indexFromOrigName_of_absent members 0 found,
      ptokensToFieldPathInMembers_eq srcIndex ftName rest firstLevelDone members 0 found]
    rfl

/-- The locals of `ptokens_to_field_path` that its loop reads and writes. -/
structure PtokensLoopState where
  curPtoken : List String
  fc : CtfFieldClass
  firstLevelDone : Bool
  fieldPath : List Int

/-- The state before the loop: the whole token list, the class the path is
relative to, and an empty field path. -/
def PtokensLoopState.init (ptokens : List String) (fc : CtfFieldClass) : PtokensLoopState :=
  ⟨ptokens, fc, false, []⟩

/-- The end of an iteration: `ctf_field_path_append_index`, then the move to
the child, whose existence is asserted. -/
def PtokensLoopState.descend (s : PtokensLoopState) (curPtoken : List String) (firstLevelDone : Bool)
    (childIndex : Int) : Except ResolveError (Option PtokensLoopState) :=
  match s.fc.compoundBorrowFieldClassByIndex childIndex with
  | some childFc => .ok (some ⟨curPtoken, childFc, firstLevelDone, s.fieldPath ++ [childIndex]⟩)
  | none => .error .aborted

/-- One iteration of the loop of `ptokens_to_field_path`; `none` when the loop
condition fails, that is when no token is left. -/
def ptokensToFieldPathStep (srcIndex : Int) (s : PtokensLoopState) :
    Except ResolveError (Option PtokensLoopState) :=
  match s.curPtoken with
  | [] => .ok none
  | ftName :: rest =>
      if s.fc.isArrayOrSequence then s.descend s.curPtoken s.firstLevelDone (-1)
      else
        let childIndex := s.fc.compoundGetFieldClassIndexFromOrigName ftName
        if childIndex < 0 then .error .failed
        else if childIndex > srcIndex ∧ s.firstLevelDone = false then .error .failed
        else s.descend rest true childIndex

/-- The loop run with `fuel` iterations at most; `none` when the fuel runs out. -/
def ptokensToFieldPathLoop (srcIndex : Int) : Nat → PtokensLoopState → Option (Except ResolveError (List Int))
  | 0, _ => none
  | fuel + 1, s =>
      match ptokensToFieldPathStep srcIndex s with
      | .ok none => some (.ok s.fieldPath)
      | .ok (some next) => ptokensToFieldPathLoop srcIndex fuel next
      | .error e => some (.error e)

/-- `s'` follows `s` by one iteration that stays in the loop. -/
def PtokensLoopStep (srcIndex : Int) (s s' : PtokensLoopState) : Prop :=
  ptokensToFieldPathStep srcIndex s = .ok (some s')

section Step

variable {srcIndex : Int} {s s' : PtokensLoopState}

/-- What an iteration that stays in the loop does: it appends one index and
moves to the child at it; the index is -1 at an array or sequence, where no
token is consumed, and otherwise a member index, where one is. -/
theorem PtokensLoopStep.cases (step : PtokensLoopStep srcIndex s s') :
    ∃ childIndex, s'.fieldPath = s.fieldPath ++ [childIndex] ∧
      s.fc.compoundBorrowFieldClassByIndex childIndex = some s'.fc ∧
      (childIndex = -1 ∧ s.fc.isArrayOrSequence ∧ s'.curPtoken = s.curPtoken ∨
        0 ≤ childIndex ∧ ∃ ftName, s.curPtoken = ftName :: s'.curPtoken) := by
  have descended : ∀ {curPtoken firstLevelDone childIndex},
      s.descend curPtoken firstLevelDone childIndex = .ok (some s') →
        s'.fieldPath = s.fieldPath ++ [childIndex] ∧ s.fc.compoundBorrowFieldClassByIndex childIndex = some s'.fc ∧
          s'.curPtoken = curPtoken := by
    intro curPtoken firstLevelDone childIndex found
    simp only [PtokensLoopState.descend] at found
    split at found <;> simp only [Except.ok.injEq, Option.some.injEq, reduceCtorEq] at found
    subst found
    exact ⟨rfl, ‹_›, rfl⟩
  unfold PtokensLoopStep ptokensToFieldPathStep at step
  split at step
  · cases step
  · dsimp only at step
    split_ifs at step with nested negative
    · obtain ⟨path, child, tokens⟩ := descended step
      exact ⟨-1, path, child, .inl ⟨rfl, nested, tokens⟩⟩
    · obtain ⟨path, child, tokens⟩ := descended step
      exact ⟨_, path, child, .inr ⟨by omega, _, by rw [tokens]; assumption⟩⟩

theorem PtokensLoopStep.height_lt (step : PtokensLoopStep srcIndex s s') : s'.fc.height < s.fc.height := by
  obtain ⟨_, _, child, _⟩ := step.cases
  exact height_lt_of_compoundBorrow child

end Step

/-- One iteration is one unfolding of `ptokensToFieldPath`: the path the
recursion builds from a state, after the state's path, is what the iteration
leaves to the rest of the loop. -/
theorem ptokensToFieldPath_step (srcIndex : Int) (s : PtokensLoopState) :
    (s.fieldPath ++ ·) <$> ptokensToFieldPath srcIndex s.curPtoken s.fc s.firstLevelDone =
      match ptokensToFieldPathStep srcIndex s with
      | .ok none => .ok s.fieldPath
      | .ok (some next) => (next.fieldPath ++ ·) <$> ptokensToFieldPath srcIndex next.curPtoken next.fc next.firstLevelDone
      | .error e => .error e := by
  obtain ⟨curPtoken, fc, firstLevelDone, fieldPath⟩ := s
  cases curPtoken with
  | nil => simp [ptokensToFieldPath, ptokensToFieldPathStep]
  | cons ftName rest =>
      cases fc with
      | array elemFc _ | sequence elemFc _ _ _ _ =>
          cases inner : ptokensToFieldPath srcIndex (ftName :: rest) elemFc firstLevelDone <;>
            simp [ptokensToFieldPath, ptokensToFieldPathStep, isArrayOrSequence, PtokensLoopState.descend,
              compoundBorrowFieldClassByIndex, inner]
      | struct members | variant _ _ _ members =>
          simp only [ptokensToFieldPath, ptokensToFieldPathInMembers_eq_index, ptokensToFieldPathStep,
            isArrayOrSequence, compoundGetFieldClassIndexFromOrigName, PtokensLoopState.descend,
            compoundBorrowFieldClassByIndex, Bool.false_eq_true, if_false]
          split_ifs
          · rfl
          · rfl
          · cases borrowMember (indexFromOrigName ftName members 0) members with
            | none => rfl
            | some childFc =>
                cases ptokensToFieldPath srcIndex rest childFc true <;> simp
      | int _ | enum _ | float | string => rfl

/-- With more fuel than the class is high, the loop ends and returns what the
recursion does. -/
theorem ptokensToFieldPathLoop_eq (srcIndex : Int) :
    ∀ (fuel : Nat) (s : PtokensLoopState), s.fc.height < fuel →
      ptokensToFieldPathLoop srcIndex fuel s =
        some ((s.fieldPath ++ ·) <$> ptokensToFieldPath srcIndex s.curPtoken s.fc s.firstLevelDone)
  | 0, _, enough => absurd enough (Nat.not_lt_zero _)
  | fuel + 1, s, enough => by
      rw [ptokensToFieldPathLoop, ptokensToFieldPath_step]
      rcases next : ptokensToFieldPathStep srcIndex s with e | _ | s'
      · rfl
      · rfl
      · have lower := PtokensLoopStep.height_lt next
        exact ptokensToFieldPathLoop_eq srcIndex fuel s' (by omega)

section Runs

variable {srcIndex : Int}

/-- Every run keeps the count: the member indices appended so far and the
tokens left add up to the tokens the loop started with. -/
theorem namedSteps_add_length {ptokens : List String} {s s' : PtokensLoopState}
    (run : ReflTransGen (PtokensLoopStep srcIndex) s s')
    (start : s.fieldPath.countP (0 ≤ ·) + s.curPtoken.length = ptokens.length) :
    s'.fieldPath.countP (0 ≤ ·) + s'.curPtoken.length = ptokens.length := by
  induction run with
  | refl => exact start
  | tail _ step ih =>
      obtain ⟨childIndex, path, _, ⟨rfl, _, tokens⟩ | ⟨named, ftName, tokens⟩⟩ := step.cases
      · rw [path, tokens, List.countP_append]
        simpa using ih
      · rw [path, List.countP_append, ← ih, tokens]
        simp [named]
        omega

/-- A run only appends to the field path. -/
theorem PtokensLoopStep.run_extends {s s' : PtokensLoopState} (run : ReflTransGen (PtokensLoopStep srcIndex) s s') :
    ∃ appended, s'.fieldPath = s.fieldPath ++ appended := by
  induction run with
  | refl => exact ⟨[], (List.append_nil _).symm⟩
  | tail _ step ih =>
      obtain ⟨appended, path⟩ := ih
      obtain ⟨childIndex, next, _⟩ := step.cases
      exact ⟨appended ++ [childIndex], by rw [next, path, List.append_assoc]⟩

/-- A run of `k` steps that all take -1 starts at a class with at least `k`
arrays or sequences nested at its top. -/
theorem le_arrayNesting_of_run {s s' : PtokensLoopState} (run : ReflTransGen (PtokensLoopStep srcIndex) s s') :
    ∀ k, s'.fieldPath = s.fieldPath ++ List.replicate k (-1) → k ≤ s.fc.arrayNesting := by
  induction run using ReflTransGen.head_induction_on with
  | refl =>
      intro k same
      simp at same
      omega
  | head step rest ih =>
      intro k path
      obtain ⟨childIndex, appended, child, kind⟩ := step.cases
      obtain ⟨later, extended⟩ := PtokensLoopStep.run_extends rest
      rw [extended, appended, List.append_assoc, List.append_right_inj] at path
      cases k with
      | zero => simp at path
      | succ k =>
          simp only [List.singleton_append, List.replicate_succ, List.cons.injEq] at path
          obtain ⟨rfl, tail⟩ := path
          rcases kind with ⟨-, nested, -⟩ | ⟨negative, -⟩
          · rw [arrayNesting_of_compoundBorrow nested child]
            exact Nat.succ_le_succ (ih k (by rw [extended, tail]))
          · omega

end Runs

/-- The loop of `ptokens_to_field_path` on every class, token list and source
index: with more fuel than the class is high it ends, with the result of
`ptokensToFieldPath`; along a run the member steps taken and the tokens left
add up to the token count; a block of -1 steps from a state is no longer than
the arrays and sequences nested at the top of its class; and every iteration
lowers (tokens left, height) lexicographically. -/
theorem ptokensToFieldPathLoop_terminates (srcIndex : Int) (ptokens : List String) (fc : CtfFieldClass) :
    (∀ fuel, fc.height < fuel →
      ptokensToFieldPathLoop srcIndex fuel (.init ptokens fc) = some (ptokensToFieldPath srcIndex ptokens fc false)) ∧
    (∀ s, ReflTransGen (PtokensLoopStep srcIndex) (.init ptokens fc) s →
      s.fieldPath.countP (0 ≤ ·) + s.curPtoken.length = ptokens.length) ∧
    (∀ s s' k, ReflTransGen (PtokensLoopStep srcIndex) s s' →
      s'.fieldPath = s.fieldPath ++ List.replicate k (-1) → k ≤ s.fc.arrayNesting) ∧
    ∀ s s', PtokensLoopStep srcIndex s s' →
      Prod.Lex (· < ·) (· < ·) (s'.curPtoken.length, s'.fc.height) (s.curPtoken.length, s.fc.height) := by
  refine ⟨fun fuel enough => ?_, fun s run => namedSteps_add_length run (by simp [PtokensLoopState.init]),
    fun s s' k run => le_arrayNesting_of_run run k, fun s s' step => ?_⟩
  · rw [ptokensToFieldPathLoop_eq srcIndex fuel _ enough]
    show some (([] ++ ·) <$> ptokensToFieldPath srcIndex ptokens fc false) = _
    cases ptokensToFieldPath srcIndex ptokens fc false <;> rfl
  · obtain ⟨_, _, child, ⟨-, -, tokens⟩ | ⟨-, ftName, tokens⟩⟩ := step.cases
    · rw [tokens]
      exact .right _ (height_lt_of_compoundBorrow child)
    · rw [tokens]
      exact .left _ _ (Nat.lt_succ_self _)

/-- An array of structures with one member `x`: the walk of `x` from it takes
a -1 step and then a member step. -/
def recordArray : CtfFieldClass := .array (.struct [("x", .float)]) false

theorem ptokensToFieldPathLoop_recordArray :
    ptokensToFieldPathLoop 0 3 (.init ["x"] recordArray) = some (ptokensToFieldPath 0 ["x"] recordArray false) ∧
      ([-1, 0] : List Int).countP (0 ≤ ·) + ([] : List String).length = ["x"].length ∧
      1 ≤ recordArray.arrayNesting ∧
      Prod.Lex (· < ·) (· < ·) (["x"].length, (CtfFieldClass.struct [("x", .float)]).height)
        (["x"].length, recordArray.height) :=
  let facts := ptokensToFieldPathLoop_terminates 0 ["x"] recordArray
  let entered : PtokensLoopState := ⟨["x"], .struct [("x", .float)], false, [-1]⟩
  have enter : PtokensLoopStep 0 (.init ["x"] recordArray) entered := show ptokensToFieldPathStep _ _ = _ from rfl
  have name : PtokensLoopStep 0 entered ⟨[], .float, true, [-1, 0]⟩ := show ptokensToFieldPathStep _ _ = _ from rfl
  ⟨facts.1 3 (by decide), facts.2.1 _ (.tail (.single enter) name), facts.2.2.1 _ _ 1 (.single enter) rfl,
    facts.2.2.2 _ _ enter⟩

end Btrace.Ctf
