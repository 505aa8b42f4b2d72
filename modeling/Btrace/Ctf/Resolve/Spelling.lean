import Btrace.Ctf.Resolve.Erase

set_option autoImplicit false

/- The reference rules of the resolver as a relation: a descent spells a list of
tokens when each structure or variant step takes the first member named by the
next token and each array or sequence step takes -1. `ptokens_to_field_path`
computes exactly the descents that respect its sibling bound, and fails (never
aborts) otherwise. -/
namespace Btrace.Ctf

open CtfFieldClass

section ExceptLemmas

variable {α β : Type}

@[simp] theorem except_map_ok (f : α → β) (a : α) :
    (f <$> (Except.ok a : Except ResolveError α)) = .ok (f a) := rfl

@[simp] theorem except_map_error (f : α → β) (e : ResolveError) :
    (f <$> (Except.error e : Except ResolveError α)) = .error e := rfl

theorem except_map_eq_ok {f : α → β} {x : Except ResolveError α} {b : β} :
    f <$> x = .ok b ↔ ∃ a, x = .ok a ∧ f a = b := by
  cases x <;> simp

theorem except_map_eq_error {f : α → β} {x : Except ResolveError α} {e : ResolveError} :
    f <$> x = .error e ↔ x = .error e := by
  cases x <;> simp

end ExceptLemmas

/-- `childFc` is the first member of `members` whose original name is `name`:
what `ctf_field_class_compound_get_field_class_index_from_orig_name` finds. -/
def FirstMember (members : List (String × CtfFieldClass)) (name : String) (index : Nat)
    (childFc : CtfFieldClass) : Prop :=
  members[index]? = some (name, childFc) ∧ ∀ j < index, (members[j]?).map Prod.fst ≠ some name

/-- The reference rules' descent: `path` spells `ptokens` from `fc` when every
structure or variant step takes the first member named by the next token, every
array or sequence step takes -1 without consuming a token, and the descent stops
after the last token. -/
inductive Spells : CtfFieldClass → List String → List Int → Prop
  | done (fc : CtfFieldClass) : Spells fc [] []
  | array {elemFc : CtfFieldClass} {isText : Bool} {ftName : String} {rest : List String}
      {path : List Int} :
      Spells elemFc (ftName :: rest) path → Spells (.array elemFc isText) (ftName :: rest) (-1 :: path)
  | sequence {elemFc : CtfFieldClass} {isText : Bool} {lengthRef : String} {lengthPath : CtfFieldPath}
      {lengthFc : Option CtfFieldClassInt} {ftName : String} {rest : List String} {path : List Int} :
      Spells elemFc (ftName :: rest) path →
        Spells (.sequence elemFc isText lengthRef lengthPath lengthFc) (ftName :: rest) (-1 :: path)
  | struct {members : List (String × CtfFieldClass)} {ftName : String} {rest : List String}
      {index : Nat} {childFc : CtfFieldClass} {path : List Int} :
      FirstMember members ftName index childFc → Spells childFc rest path →
        Spells (.struct members) (ftName :: rest) (index :: path)
  | variant {tagRef : String} {tagPath : CtfFieldPath} {tagFc : Option CtfFieldClassEnum}
      {options : List (String × CtfFieldClass)} {ftName : String} {rest : List String}
      {index : Nat} {childFc : CtfFieldClass} {path : List Int} :
      FirstMember options ftName index childFc → Spells childFc rest path →
        Spells (.variant tagRef tagPath tagFc options) (ftName :: rest) (index :: path)

/-- The index taken at the first structure or variant step of a descent (array
and sequence steps take -1, member steps a non-negative index). -/
def firstNamedIndex (path : List Int) : Option Int := path.find? (0 ≤ ·)

/-- The sibling bound of a relative search: the first named step of the descent
is at most `bound`, the index of the child being resolved. -/
def FirstNamedWithin (bound : Int) (path : List Int) : Prop :=
  ∀ index, firstNamedIndex path = some index → index ≤ bound

@[simp] theorem firstNamedIndex_nil : firstNamedIndex [] = none := rfl

@[simp] theorem firstNamedIndex_arrayStep (path : List Int) :
    firstNamedIndex (-1 :: path) = firstNamedIndex path := by
  simp [firstNamedIndex, List.find?_cons]

@[simp] theorem firstNamedIndex_memberStep (index : Nat) (path : List Int) :
    firstNamedIndex ((index : Int) :: path) = some (index : Int) := by
  have named : (0 : Int) ≤ index := by omega
  simp [firstNamedIndex, List.find?_cons, named]

theorem firstNamedWithin_arrayStep (bound : Int) (path : List Int) :
    FirstNamedWithin bound (-1 :: path) ↔ FirstNamedWithin bound path := by
  simp [FirstNamedWithin]

theorem firstNamedWithin_memberStep (bound : Int) (index : Nat) (path : List Int) :
    FirstNamedWithin bound ((index : Int) :: path) ↔ (index : Int) ≤ bound := by
  simp [FirstNamedWithin]

theorem FirstMember.borrowMember_eq {members : List (String × CtfFieldClass)} {name : String}
    {index : Nat} {childFc : CtfFieldClass} (first : FirstMember members name index childFc) :
    borrowMember index members = some childFc := by
  have named : (0 : Int) ≤ index := by omega
  simp [CtfFieldClass.borrowMember, first.1, named]

/-- A spelled descent is a walk that exists. -/
theorem Spells.reaches {fc : CtfFieldClass} {ptokens : List String} {path : List Int}
    (spells : Spells fc ptokens path) : ∃ target, fc.borrowFieldClassByPath path = some target := by
  induction spells with
  | done fc => exact ⟨fc, rfl⟩
  | array _ ih | sequence _ ih => simpa [borrowFieldClassByPath, compoundBorrowFieldClassByIndex] using ih
  | struct first _ ih | variant first _ ih =>
      simpa [borrowFieldClassByPath, compoundBorrowFieldClassByIndex, first.borrowMember_eq] using ih

/-- The member loop finds the first member of the name, at its offset from
`childIndex`, and fails when there is none. -/
theorem ptokensToFieldPathInMembers_eq (srcIndex : Int) (ftName : String) (rest : List String)
    (firstLevelDone : Bool) :
    ∀ (members : List (String × CtfFieldClass)) (childIndex : Nat),
      (∀ j childFc, ¬ FirstMember members ftName j childFc) →
        ptokensToFieldPathInMembers srcIndex ftName rest firstLevelDone members childIndex = .error .failed
  | [], _, _ => rfl
  | (origName, childFc) :: members, childIndex, absent => by
      have differs : origName ≠ ftName := fun same => absent 0 childFc ⟨by simp [same], by simp⟩
      simp only [ptokensToFieldPathInMembers, differs, if_false]
      apply ptokensToFieldPathInMembers_eq
      intro j c first
      exact absent (j + 1) c ⟨by simpa using first.1, fun i below => by
        cases i with
        | zero => simpa using differs
        | succ i => simpa using first.2 i (by omega)⟩

theorem ptokensToFieldPathInMembers_of_firstMember (srcIndex : Int) (ftName : String) (rest : List String)
    (firstLevelDone : Bool) :
    ∀ (members : List (String × CtfFieldClass)) (childIndex j : Nat) (childFc : CtfFieldClass),
      FirstMember members ftName j childFc →
        ptokensToFieldPathInMembers srcIndex ftName rest firstLevelDone members childIndex =
          if ((childIndex + j : Nat) : Int) > srcIndex ∧ firstLevelDone = false then .error .failed
          else (((childIndex + j : Nat) : Int) :: ·) <$> ptokensToFieldPath srcIndex rest childFc true
  | [], _, _, _, first => by simp [FirstMember] at first
  | (origName, c) :: members, childIndex, 0, childFc, first => by
      simp only [FirstMember, List.getElem?_cons_zero, Option.some.injEq, Prod.mk.injEq] at first
      simp [ptokensToFieldPathInMembers, first.1.1, first.1.2]
  | (origName, c) :: members, childIndex, j + 1, childFc, first => by
      have differs : origName ≠ ftName := by simpa using first.2 0 (by omega)
      simp only [ptokensToFieldPathInMembers, differs, if_false]
      rw [ptokensToFieldPathInMembers_of_firstMember srcIndex ftName rest firstLevelDone members
        (childIndex + 1) j childFc ⟨by simpa using first.1, fun i below => by
          simpa using first.2 (i + 1) (by omega)⟩]
      simp only [Nat.add_assoc, Nat.add_comm 1 j]

mutual
/-- `ptokens_to_field_path` only ever fails with -1. -/
theorem ptokensToFieldPath_error (srcIndex : Int) :
    ∀ (ptokens : List String) (fc : CtfFieldClass) (firstLevelDone : Bool) (e : ResolveError),
      ptokensToFieldPath srcIndex ptokens fc firstLevelDone = .error e → e = .failed
  | [], _, _, _, found => by simp [ptokensToFieldPath] at found
  | _ :: _, .int _, _, _, found | _ :: _, .enum _, _, _, found | _ :: _, .float, _, _, found
  | _ :: _, .string, _, _, found => by simp [ptokensToFieldPath] at found; exact found.symm
  | ftName :: rest, .array elemFc _, firstLevelDone, e, found
  | ftName :: rest, .sequence elemFc _ _ _ _, firstLevelDone, e, found => by
      simp only [ptokensToFieldPath] at found
      cases inner : ptokensToFieldPath srcIndex (ftName :: rest) elemFc firstLevelDone with
      | ok _ => simp [inner] at found
      | error e' =>
          simp only [inner, except_map_error, Except.error.injEq] at found
          exact found ▸ ptokensToFieldPath_error srcIndex (ftName :: rest) elemFc firstLevelDone e' inner
  | ftName :: rest, .struct members, firstLevelDone, e, found
  | ftName :: rest, .variant _ _ _ members, firstLevelDone, e, found =>
      ptokensToFieldPathInMembers_error srcIndex ftName rest firstLevelDone members 0 e found

theorem ptokensToFieldPathInMembers_error (srcIndex : Int) (ftName : String) (rest : List String)
    (firstLevelDone : Bool) :
    ∀ (members : List (String × CtfFieldClass)) (childIndex : Nat) (e : ResolveError),
      ptokensToFieldPathInMembers srcIndex ftName rest firstLevelDone members childIndex = .error e →
        e = .failed
  | [], _, _, found => by simp [ptokensToFieldPathInMembers] at found; exact found.symm
  | (origName, childFc) :: members, childIndex, e, found => by
      simp only [ptokensToFieldPathInMembers] at found
      split_ifs at found
      · simp at found; exact found.symm
      · cases inner : ptokensToFieldPath srcIndex rest childFc true with
        | ok _ => simp [inner] at found
        | error e' =>
            simp only [inner, except_map_error, Except.error.injEq] at found
            exact found ▸ ptokensToFieldPath_error srcIndex rest childFc true e' inner
      · exact ptokensToFieldPathInMembers_error srcIndex ftName rest firstLevelDone members (childIndex + 1) e found
end

mutual
/-- What `ptokens_to_field_path` returns is a descent spelling the tokens, and
before the first level is done its first named step respects the bound. -/
theorem spells_of_ptokensToFieldPath (srcIndex : Int) :
    ∀ (ptokens : List String) (fc : CtfFieldClass) (firstLevelDone : Bool) (path : List Int),
      ptokensToFieldPath srcIndex ptokens fc firstLevelDone = .ok path →
        Spells fc ptokens path ∧ (firstLevelDone = false → FirstNamedWithin srcIndex path)
  | [], fc, _, path, found => by
      simp only [ptokensToFieldPath, Except.ok.injEq] at found
      subst found
      exact ⟨.done fc, fun _ _ none => by simp at none⟩
  | _ :: _, .int _, _, _, found | _ :: _, .enum _, _, _, found | _ :: _, .float, _, _, found
  | _ :: _, .string, _, _, found => by simp [ptokensToFieldPath] at found
  | ftName :: rest, .array elemFc _, firstLevelDone, path, found
  | ftName :: rest, .sequence elemFc _ _ _ _, firstLevelDone, path, found => by
      simp only [ptokensToFieldPath, except_map_eq_ok] at found
      obtain ⟨tail, inner, rfl⟩ := found
      obtain ⟨spells, within⟩ :=
        spells_of_ptokensToFieldPath srcIndex (ftName :: rest) elemFc firstLevelDone tail inner
      first
        | exact ⟨.array spells, fun notDone => (firstNamedWithin_arrayStep _ _).2 (within notDone)⟩
        | exact ⟨.sequence spells, fun notDone => (firstNamedWithin_arrayStep _ _).2 (within notDone)⟩
  | ftName :: rest, .struct members, firstLevelDone, path, found
  | ftName :: rest, .variant _ _ _ members, firstLevelDone, path, found => by
      obtain ⟨j, childFc, tail, first, rfl, spells, within⟩ :=
        spells_of_ptokensToFieldPathInMembers srcIndex ftName rest firstLevelDone members 0 path found
      simp only [Nat.zero_add] at first within ⊢
      first
        | exact ⟨.struct first spells, fun notDone => (firstNamedWithin_memberStep _ _ _).2 (within notDone)⟩
        | exact ⟨.variant first spells, fun notDone => (firstNamedWithin_memberStep _ _ _).2 (within notDone)⟩

theorem spells_of_ptokensToFieldPathInMembers (srcIndex : Int) (ftName : String) (rest : List String)
    (firstLevelDone : Bool) :
    ∀ (members : List (String × CtfFieldClass)) (childIndex : Nat) (path : List Int),
      ptokensToFieldPathInMembers srcIndex ftName rest firstLevelDone members childIndex = .ok path →
        ∃ j childFc tail, FirstMember members ftName j childFc ∧
          path = ((childIndex + j : Nat) : Int) :: tail ∧ Spells childFc rest tail ∧
          (firstLevelDone = false → ((childIndex + j : Nat) : Int) ≤ srcIndex)
  | [], _, _, found => by simp [ptokensToFieldPathInMembers] at found
  | (origName, childFc) :: members, childIndex, path, found => by
      simp only [ptokensToFieldPathInMembers] at found
      split_ifs at found with named bound
      · simp only [except_map_eq_ok] at found
        obtain ⟨tail, inner, rfl⟩ := found
        refine ⟨0, childFc, tail, ⟨by simp [named], by simp⟩, by simp,
          (spells_of_ptokensToFieldPath srcIndex rest childFc true tail inner).1, fun notDone => ?_⟩
        simp only [notDone, and_true, gt_iff_lt] at bound
        simp only [Nat.add_zero]
        omega
      · obtain ⟨j, c, tail, first, rfl, spells, within⟩ :=
          spells_of_ptokensToFieldPathInMembers srcIndex ftName rest firstLevelDone members
            (childIndex + 1) path found
        refine ⟨j + 1, c, tail, ⟨by simpa using first.1, fun i below => ?_⟩, by
          simp [Nat.add_assoc, Nat.add_comm 1 j], spells, by simpa [Nat.add_assoc, Nat.add_comm 1 j] using within⟩
        cases i with
        | zero => simpa using named
        | succ i => simpa using first.2 i (by omega)
end

/-- Every descent that spells the tokens and respects the bound is what
`ptokens_to_field_path` returns. -/
theorem ptokensToFieldPath_of_spells {fc : CtfFieldClass} {ptokens : List String} {path : List Int}
    (spells : Spells fc ptokens path) (srcIndex : Int) :
    ∀ firstLevelDone : Bool, (firstLevelDone = false → FirstNamedWithin srcIndex path) →
      ptokensToFieldPath srcIndex ptokens fc firstLevelDone = .ok path := by
  induction spells with
  | done fc => intro firstLevelDone _; cases fc <;> rfl
  | array _ ih | sequence _ ih =>
      intro firstLevelDone within
      simp only [ptokensToFieldPath]
      rw [ih firstLevelDone fun notDone => (firstNamedWithin_arrayStep _ _).1 (within notDone)]
      rfl
  | @struct members ftName rest index childFc path first _ ih
  | @variant _ _ _ members ftName rest index childFc path first _ ih =>
      intro firstLevelDone within
      simp only [ptokensToFieldPath]
      rw [ptokensToFieldPathInMembers_of_firstMember srcIndex ftName rest firstLevelDone members 0 index
        childFc first, ih true (by simp)]
      have bound : ¬ (((0 + index : Nat) : Int) > srcIndex ∧ firstLevelDone = false) := by
        rintro ⟨above, notDone⟩
        have := (firstNamedWithin_memberStep _ _ _).1 (within notDone)
        simp at above
        omega
      rw [if_neg bound]
      simp

theorem ptokensToFieldPath_ok_iff (srcIndex : Int) (ptokens : List String) (fc : CtfFieldClass)
    (path : List Int) :
    ptokensToFieldPath srcIndex ptokens fc false = .ok path ↔
      Spells fc ptokens path ∧ FirstNamedWithin srcIndex path :=
  ⟨fun found => let facts := spells_of_ptokensToFieldPath srcIndex ptokens fc false path found
      ⟨facts.1, facts.2 rfl⟩,
    fun ⟨spells, within⟩ => ptokensToFieldPath_of_spells spells srcIndex false fun _ => within⟩

/-- A descent reads only names and shapes, which erasing keeps. -/
theorem spells_eraseTargets {fc : CtfFieldClass} {ptokens : List String} {path : List Int} :
    Spells fc.eraseTargets ptokens path ↔ Spells fc ptokens path := by
  have within : FirstNamedWithin ((firstNamedIndex path).getD 0) path := fun index found => by simp [found]
  constructor <;> intro spells
  · have found := (ptokensToFieldPath_ok_iff _ ptokens _ path).mpr ⟨spells, within⟩
    rw [ptokensToFieldPath_eraseTargets] at found
    exact ((ptokensToFieldPath_ok_iff _ ptokens fc path).mp found).1
  · have found := (ptokensToFieldPath_ok_iff _ ptokens fc path).mpr ⟨spells, within⟩
    rw [← ptokensToFieldPath_eraseTargets] at found
    exact ((ptokensToFieldPath_ok_iff _ ptokens _ path).mp found).1

theorem Spells.congr {fc fc' : CtfFieldClass} {ptokens : List String} {path : List Int}
    (spells : Spells fc ptokens path) (same : fc.eraseTargets = fc'.eraseTargets) : Spells fc' ptokens path :=
  spells_eraseTargets.mp (same ▸ spells_eraseTargets.mpr spells)

end Btrace.Ctf
