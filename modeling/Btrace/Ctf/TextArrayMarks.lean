import Btrace.Ctf.TextArraySequence
import Btrace.Ctf.Resolve.Run

set_option autoImplicit false

/- What `ctf_trace_class_update_text_array_sequence` changes, seen from the
resolver. The pass sets `is_text` on an array or sequence of text elements and
makes the element unsigned; everything else of a root class stays. The
resolver reads names, kinds, references and the class a reference reaches, and
a reference never reaches the element of an array (its last step is a member
step), so the only nodes the pass replaces by something else than their marked
copy are out of its reach. Each reading function of the resolver is shown here
to give on a marked tree what it gives on the tree. -/
namespace Btrace.Ctf

open CtfFieldClass CtfTraceClass

/-- `markTextArray` at a node of a root class the pass visits, nothing at a
node of one it skips. -/
def markTextArrayIf : Bool → CtfFieldClass → CtfFieldClass
  | true, fc => markTextArray fc
  | false, fc => fc

/-- A root class as the pass leaves it: every node marked when its layer is
not translated, the class itself otherwise. -/
def markTextArrays (marked : Bool) (fc : CtfFieldClass) : CtfFieldClass :=
  fc.mapNodes (markTextArrayIf marked)

/-- The array or sequence `fc` has a text element. -/
def hasTextElement : CtfFieldClass → Bool
  | .array elemFc _ | .sequence elemFc _ _ _ _ => isTextElement elemFc
  | _ => false

/-- `path` ends at the element of a text array below `fc`: the one place where
a marked tree holds an unsigned copy of a node instead of its marked copy. -/
def endsAtTextElement : CtfFieldClass → List Int → Bool
  | _, [] => false
  | fc, index :: path =>
      match fc.compoundBorrowFieldClassByIndex index with
      | some child => (path.isEmpty && hasTextElement fc) || endsAtTextElement child path
      | none => false

section Structure

mutual
theorem mapNodes_eq_self {g : CtfFieldClass → CtfFieldClass} (keeps : ∀ fc, g fc = fc) :
    ∀ fc : CtfFieldClass, fc.mapNodes g = fc
  | .struct members => by rw [mapNodes, mapNodesMembers_eq_self keeps members, keeps]
  | .variant _ _ _ options => by rw [mapNodes, mapNodesMembers_eq_self keeps options, keeps]
  | .array elemFc _ => by rw [mapNodes, mapNodes_eq_self keeps elemFc, keeps]
  | .sequence elemFc _ _ _ _ => by rw [mapNodes, mapNodes_eq_self keeps elemFc, keeps]
  | .int _ | .enum _ | .float | .string => keeps _

theorem mapNodesMembers_eq_self {g : CtfFieldClass → CtfFieldClass} (keeps : ∀ fc, g fc = fc) :
    ∀ members : List (String × CtfFieldClass), mapNodesMembers g members = members
  | [] => rfl
  | (_, fc) :: members => by rw [mapNodesMembers, mapNodes_eq_self keeps fc, mapNodesMembers_eq_self keeps members]
end

@[simp] theorem markTextArrays_false : markTextArrays false = id :=
  funext (mapNodes_eq_self fun _ => rfl)

theorem markTextArrays_true : markTextArrays true = mapNodes markTextArray := rfl

variable (marked : Bool)

@[simp] theorem markTextArrays_struct (members : List (String × CtfFieldClass)) :
    markTextArrays marked (.struct members) = .struct (members.map fun m => (m.1, markTextArrays marked m.2)) := by
  cases marked <;> simp [markTextArrays, mapNodes, markTextArrayIf, markTextArray, mapNodesMembers_eq_map]

@[simp] theorem markTextArrays_variant (tagRef : String) (tagPath : CtfFieldPath)
    (tagFc : Option CtfFieldClassEnum) (options : List (String × CtfFieldClass)) :
    markTextArrays marked (.variant tagRef tagPath tagFc options) =
      .variant tagRef tagPath tagFc (options.map fun m => (m.1, markTextArrays marked m.2)) := by
  cases marked <;> simp [markTextArrays, mapNodes, markTextArrayIf, markTextArray, mapNodesMembers_eq_map]

@[simp] theorem markTextArrays_array (elemFc : CtfFieldClass) (isText : Bool) :
    markTextArrays marked (.array elemFc isText) =
      if marked && isTextElement elemFc then .array (clearSigned elemFc) true
      else .array (markTextArrays marked elemFc) isText := by
  cases marked
  · simp
  · by_cases text : isTextElement elemFc <;>
      simp [markTextArrays_true, mapNodes, markTextArray, isTextElement_mapNodes_markTextArray, text,
        mapNodes_markTextArray_of_isTextElement]

@[simp] theorem markTextArrays_sequence (elemFc : CtfFieldClass) (isText : Bool) (lengthRef : String)
    (lengthPath : CtfFieldPath) (lengthFc : Option CtfFieldClassInt) :
    markTextArrays marked (.sequence elemFc isText lengthRef lengthPath lengthFc) =
      if marked && isTextElement elemFc then .sequence (clearSigned elemFc) true lengthRef lengthPath lengthFc
      else .sequence (markTextArrays marked elemFc) isText lengthRef lengthPath lengthFc := by
  cases marked
  · simp
  · by_cases text : isTextElement elemFc <;>
      simp [markTextArrays_true, mapNodes, markTextArray, isTextElement_mapNodes_markTextArray, text,
        mapNodes_markTextArray_of_isTextElement]

@[simp] theorem markTextArrays_int (intFc : CtfFieldClassInt) : markTextArrays marked (.int intFc) = .int intFc := by
  cases marked <;> rfl

@[simp] theorem markTextArrays_enum (enumFc : CtfFieldClassEnum) :
    markTextArrays marked (.enum enumFc) = .enum enumFc := by
  cases marked <;> rfl

@[simp] theorem markTextArrays_float : markTextArrays marked .float = .float := by
  cases marked <;> rfl

@[simp] theorem markTextArrays_string : markTextArrays marked .string = .string := by
  cases marked <;> rfl

end Structure

section Reads

variable (marked : Bool)

/-- A text element is an integer or an enumeration: it has no child. -/
theorem compoundBorrowFieldClassByIndex_of_isTextElement {fc : CtfFieldClass} (text : isTextElement fc = true)
    (index : Int) : fc.compoundBorrowFieldClassByIndex index = none := by
  cases fc <;> first | rfl | simp [isTextElement, asInt] at text

theorem borrowFieldClassByPath_of_isTextElement {fc : CtfFieldClass} (text : isTextElement fc = true) :
    ∀ {path : List Int}, path ≠ [] → fc.borrowFieldClassByPath path = none
  | index :: _, _ => by simp [borrowFieldClassByPath, compoundBorrowFieldClassByIndex_of_isTextElement text]

theorem isTextElement_of_hasTextElement {fc child : CtfFieldClass} {index : Int} (text : hasTextElement fc = true)
    (found : fc.compoundBorrowFieldClassByIndex index = some child) : isTextElement child = true := by
  cases fc <;> simp_all [hasTextElement, compoundBorrowFieldClassByIndex]

@[simp] theorem reference_markTextArrays (fc : CtfFieldClass) :
    (markTextArrays marked fc).reference = fc.reference := by
  cases fc <;> simp only [markTextArrays_struct, markTextArrays_variant, markTextArrays_array,
    markTextArrays_sequence, markTextArrays_int, markTextArrays_enum, markTextArrays_float,
    markTextArrays_string] <;> (try split) <;> rfl

@[simp] theorem isSequenceOrVariant_markTextArrays (fc : CtfFieldClass) :
    (markTextArrays marked fc).isSequenceOrVariant = fc.isSequenceOrVariant := by
  cases fc <;> simp only [markTextArrays_struct, markTextArrays_variant, markTextArrays_array,
    markTextArrays_sequence, markTextArrays_int, markTextArrays_enum, markTextArrays_float,
    markTextArrays_string] <;> (try split) <;> rfl

/-- The type check reads only the kind of the class being resolved. -/
@[simp] theorem validateTargetFieldClass_markTextArrays (targetFc curFc : CtfFieldClass) :
    validateTargetFieldClass targetFc (markTextArrays marked curFc) = validateTargetFieldClass targetFc curFc := by
  cases curFc <;> simp only [markTextArrays_struct, markTextArrays_variant, markTextArrays_array,
    markTextArrays_sequence, markTextArrays_int, markTextArrays_enum, markTextArrays_float,
    markTextArrays_string] <;> (try split) <;> cases targetFc <;> rfl

/-- A class that passes the type check is an integer or an enumeration, which
the pass leaves as it is. -/
theorem markTextArrays_of_validate {targetFc curFc : CtfFieldClass}
    (typed : validateTargetFieldClass targetFc curFc = .ok ()) : markTextArrays marked targetFc = targetFc := by
  cases targetFc with
  | int _ | enum _ => simp
  | _ => cases curFc <;> simp [validateTargetFieldClass, asInt] at typed

/-- A marked class that passes the type check is the class itself. -/
theorem markTextArrays_eq_self_of_validate {fc curFc : CtfFieldClass}
    (typed : validateTargetFieldClass (markTextArrays marked fc) curFc = .ok ()) : markTextArrays marked fc = fc := by
  cases fc with
  | int _ | enum _ => simp
  | struct _ | variant _ _ _ _ | float | string => cases curFc <;> simp [validateTargetFieldClass, asInt] at typed
  | array _ _ | sequence _ _ _ _ _ =>
      simp only [markTextArrays_array, markTextArrays_sequence] at typed
      split at typed <;> cases curFc <;> simp [validateTargetFieldClass, asInt] at typed

theorem isTextElement_eraseTargets (fc : CtfFieldClass) : isTextElement fc.eraseTargets = isTextElement fc := by
  cases fc <;> simp [isTextElement, asInt]

theorem compoundBorrowFieldClassByIndex_markTextArrays (fc : CtfFieldClass) (index : Int) :
    (markTextArrays marked fc).compoundBorrowFieldClassByIndex index =
      (fc.compoundBorrowFieldClassByIndex index).map
        (if marked && hasTextElement fc then clearSigned else markTextArrays marked) := by
  cases fc with
  | struct members | variant _ _ _ members =>
      simp [compoundBorrowFieldClassByIndex, hasTextElement, borrowMember_map]
  | array elemFc _ | sequence elemFc _ _ _ _ =>
      simp only [markTextArrays_array, markTextArrays_sequence, hasTextElement]
      split <;> simp_all [compoundBorrowFieldClassByIndex]
  | _ => simp [compoundBorrowFieldClassByIndex]

/-- Away from the elements of text arrays, the marked tree holds the marked
copy of every node. -/
theorem borrowFieldClassByPath_markTextArrays :
    ∀ (path : List Int) (fc : CtfFieldClass), endsAtTextElement fc path = false →
      (markTextArrays marked fc).borrowFieldClassByPath path =
        (fc.borrowFieldClassByPath path).map (markTextArrays marked)
  | [], _, _ => rfl
  | index :: path, fc, notText => by
      simp only [borrowFieldClassByPath, compoundBorrowFieldClassByIndex_markTextArrays]
      cases found : fc.compoundBorrowFieldClassByIndex index with
      | none => rfl
      | some child =>
          simp only [endsAtTextElement, found, Bool.or_eq_false_iff, Bool.and_eq_false_iff,
            List.isEmpty_eq_false] at notText
          simp only [Option.map_some', Option.some_bind]
          split
          · rename_i text
            have elem := isTextElement_of_hasTextElement (Bool.and_eq_true_iff.mp text).2 found
            have nonEmpty : path ≠ [] := by
              rcases notText.1 with nonEmpty | plain
              · exact nonEmpty
              · simp [plain] at text
            rw [borrowFieldClassByPath_of_isTextElement elem nonEmpty,
              borrowFieldClassByPath_of_isTextElement (by rwa [isTextElement_clearSigned]) nonEmpty]
            rfl
          · exact borrowFieldClassByPath_markTextArrays path child notText.2

theorem arraySteps_of_isTextElement {fc : CtfFieldClass} (text : isTextElement fc = true) (path : List Int) :
    ArraySteps fc path := by
  cases fc <;> cases path <;> trivial

theorem arraySteps_markTextArrays :
    ∀ (path : List Int) (fc : CtfFieldClass), ArraySteps (markTextArrays marked fc) path ↔ ArraySteps fc path
  | [], _ => by simp
  | index :: path, fc => by
      cases fc with
      | struct members | variant _ _ _ members =>
          simp only [markTextArrays_struct, markTextArrays_variant, ArraySteps, borrowMember_map,
            Option.map_eq_some', forall_exists_index, and_imp, forall_apply_eq_imp_iff₂,
            arraySteps_markTextArrays path]
      | array elemFc _ | sequence elemFc _ _ _ _ =>
          simp only [markTextArrays_array, markTextArrays_sequence]
          split
          · rename_i text
            have elem := (Bool.and_eq_true_iff.mp text).2
            simp only [ArraySteps, arraySteps_of_isTextElement elem,
              arraySteps_of_isTextElement (by rwa [isTextElement_clearSigned] : isTextElement (clearSigned elemFc))]
          · simp only [ArraySteps, arraySteps_markTextArrays path elemFc]
      | _ => simp [ArraySteps]

/-- On a text element the walk fails at its first token, unsigned or not. -/
theorem ptokensToFieldPath_clearSigned (srcIndex : Int) (ftName : String) (rest : List String)
    (fc : CtfFieldClass) (firstLevelDone : Bool) :
    ptokensToFieldPath srcIndex (ftName :: rest) (clearSigned fc) firstLevelDone =
      ptokensToFieldPath srcIndex (ftName :: rest) fc firstLevelDone := by
  cases fc <;> rfl

mutual
/-- The walk of `ptokens_to_field_path` reads names and kinds only. -/
theorem ptokensToFieldPath_markTextArrays (srcIndex : Int) :
    ∀ (ptokens : List String) (fc : CtfFieldClass) (firstLevelDone : Bool),
      ptokensToFieldPath srcIndex ptokens (markTextArrays marked fc) firstLevelDone =
        ptokensToFieldPath srcIndex ptokens fc firstLevelDone
  | [], fc, _ => by cases markTextArrays marked fc <;> cases fc <;> rfl
  | _ :: _, .int _, _ | _ :: _, .enum _, _ | _ :: _, .float, _ | _ :: _, .string, _ => by simp
  | ftName :: rest, .array elemFc _, firstLevelDone | ftName :: rest, .sequence elemFc _ _ _ _, firstLevelDone => by
      simp only [markTextArrays_array, markTextArrays_sequence]
      split <;> simp only [ptokensToFieldPath, ptokensToFieldPath_clearSigned,
        ptokensToFieldPath_markTextArrays srcIndex (ftName :: rest) elemFc firstLevelDone]
  | ftName :: rest, .struct members, firstLevelDone | ftName :: rest, .variant _ _ _ members, firstLevelDone => by
      simp only [markTextArrays_struct, markTextArrays_variant, ptokensToFieldPath]
      exact ptokensToFieldPathInMembers_markTextArrays srcIndex ftName rest firstLevelDone members 0

theorem ptokensToFieldPathInMembers_markTextArrays (srcIndex : Int) (ftName : String) (rest : List String)
    (firstLevelDone : Bool) :
    ∀ (members : List (String × CtfFieldClass)) (childIndex : Nat),
      ptokensToFieldPathInMembers srcIndex ftName rest firstLevelDone
          (members.map fun m => (m.1, markTextArrays marked m.2)) childIndex =
        ptokensToFieldPathInMembers srcIndex ftName rest firstLevelDone members childIndex
  | [], _ => rfl
  | (_, childFc) :: members, childIndex => by
      simp only [List.map_cons, ptokensToFieldPathInMembers, ptokensToFieldPath_markTextArrays srcIndex rest childFc,
        ptokensToFieldPathInMembers_markTextArrays srcIndex ftName rest firstLevelDone members (childIndex + 1)]
end

/-- A descent spells the same tokens in the marked tree. -/
theorem spells_markTextArrays {fc : CtfFieldClass} {ptokens : List String} {path : List Int} :
    Spells (markTextArrays marked fc) ptokens path ↔ Spells fc ptokens path := by
  have within : FirstNamedWithin ((firstNamedIndex path).getD 0) path := fun index found => by simp [found]
  have same := ptokensToFieldPath_ok_iff ((firstNamedIndex path).getD 0) ptokens (markTextArrays marked fc) path
  rw [ptokensToFieldPath_markTextArrays, ptokensToFieldPath_ok_iff] at same
  simpa only [within, and_true] using same.symm

/-- Along a path to a node that is not a text element no step ends at one:
every node on the way has a child, and a text element has none. -/
theorem endsAtTextElement_take :
    ∀ (pos : List Int) (fc node : CtfFieldClass), fc.borrowFieldClassByPath pos = some node →
      isTextElement node = false → ∀ k : Nat, endsAtTextElement fc (pos.take k) = false
  | [], _, _, _, _, _ => by simp [endsAtTextElement]
  | _ :: _, _, _, _, _, 0 => rfl
  | index :: pos, fc, node, reached, notText, k + 1 => by
      simp only [borrowFieldClassByPath, Option.bind_eq_some] at reached
      obtain ⟨child, found, reached⟩ := reached
      have plain : hasTextElement fc = false := by
        cases text : hasTextElement fc
        · rfl
        · have elem := isTextElement_of_hasTextElement text found
          cases pos with
          | nil =>
              cases reached
              rw [elem] at notText
              cases notText
          | cons _ _ =>
              rw [borrowFieldClassByPath_of_isTextElement elem (List.cons_ne_nil _ _)] at reached
              cases reached
      simp [endsAtTextElement, found, plain, endsAtTextElement_take pos child node reached notText k]

theorem endsAtTextElement_of_reached {fc node : CtfFieldClass} {pos : List Int}
    (reached : fc.borrowFieldClassByPath pos = some node) (notText : isTextElement node = false) :
    endsAtTextElement fc pos = false := by
  simpa using endsAtTextElement_take pos fc node reached notText pos.length

/-- A path that takes -1 at every array or sequence and ends at a member step
does not end at an element. -/
theorem endsAtTextElement_of_lastNamed :
    ∀ (path : List Int) (fc : CtfFieldClass), ArraySteps fc path → (∀ x, path.getLast? = some x → 0 ≤ x) →
      endsAtTextElement fc path = false
  | [], _, _, _ => rfl
  | index :: path, fc, steps, named => by
      cases found : fc.compoundBorrowFieldClassByIndex index with
      | none => simp [endsAtTextElement, found]
      | some child =>
          cases path with
          | nil =>
              have last : 0 ≤ index := named index rfl
              cases fc <;> simp_all [endsAtTextElement, hasTextElement, ArraySteps]
          | cons next path =>
              rw [endsAtTextElement, found]
              exact endsAtTextElement_of_lastNamed (next :: path) child (steps.child found) named

theorem Spells.ne_nil {fc : CtfFieldClass} {ftName : String} {rest : List String} {path : List Int}
    (spells : Spells fc (ftName :: rest) path) : path ≠ [] := by
  cases spells <;> simp

/-- A spelled descent ends at a member step: the walk stops once it has
consumed a token, and only a member step consumes one. -/
theorem Spells.lastNamed {fc : CtfFieldClass} {ptokens : List String} {path : List Int}
    (spells : Spells fc ptokens path) : ∀ x, path.getLast? = some x → 0 ≤ x := by
  induction spells with
  | done => simp
  | array inner ih | sequence inner ih =>
      obtain ⟨next, path, rfl⟩ := List.exists_cons_of_ne_nil inner.ne_nil
      exact ih
  | @struct _ _ _ _ _ path _ _ ih | @variant _ _ _ _ _ _ _ _ path _ _ ih =>
      intro x last
      cases path with
      | nil => simp only [List.getLast?_singleton, Option.some.injEq] at last; omega
      | cons next path => exact ih x last

theorem pathstrToPtokensLoop_ne_nil :
    ∀ (cs token : List Char) {ptokens : List String}, pathstrToPtokensLoop cs token = some ptokens → ptokens ≠ []
  | [], token, _, lexed => by
      simp only [pathstrToPtokensLoop] at lexed
      split at lexed
      · cases lexed
      · cases lexed
        simp
  | c :: cs, token, _, lexed => by
      simp only [pathstrToPtokensLoop] at lexed
      split_ifs at lexed
      all_goals first
        | cases lexed
        | exact pathstrToPtokensLoop_ne_nil cs _ lexed
        | (revert lexed; cases pathstrToPtokensLoop cs [] <;> simp; rintro rfl; simp)

/-- The target path a reference spells ends at a member step. -/
theorem SpellsReference.lastNamed {rootOf : CtfScope → Option CtfFieldClass} {rootScope : CtfScope}
    {rootFc : CtfFieldClass} {pos : List Int} {pathstr : String} {target : CtfFieldPath}
    (spelled : SpellsReference rootOf rootScope rootFc pos pathstr target) :
    ∀ x, target.path.getLast? = some x → 0 ≤ x := by
  obtain ⟨ptokens, lexed, rule⟩ := spelled
  split at rule
  · obtain ⟨-, _, -, spells⟩ := rule
    exact spells.lastNamed
  · obtain ⟨-, k, ancestor, bound, tail, -, -, pathIs, spells, -, -⟩ := rule
    obtain ⟨ftName, rest, rfl⟩ := List.exists_cons_of_ne_nil (pathstrToPtokensLoop_ne_nil _ [] lexed)
    rw [pathIs, List.getLast?_append_of_ne_nil _ spells.ne_nil]
    exact spells.lastNamed

end Reads

section TraceClass

/-- Whether the pass marks the root class `r` of `tc`: whether the layer that
owns it is not translated. -/
def CtfTraceClass.marksRoot (tc : CtfTraceClass) : RootClassRef → Bool
  | .packetHeader => !tc.isTranslated
  | .packetContext sc | .eventHeader sc | .eventCommonContext sc =>
      (tc.streamClasses[sc]?).any (!·.isTranslated)
  | .eventSpecContext sc ec | .eventPayload sc ec => (tc.eventClass sc ec).any (!·.isTranslated)

@[simp] theorem CtfEventClass.isTranslated_mapUntranslatedRoots (f : CtfFieldClass → CtfFieldClass)
    (ec : CtfEventClass) : (ec.mapUntranslatedRoots f).isTranslated = ec.isTranslated := by
  unfold CtfEventClass.mapUntranslatedRoots
  split <;> rfl

/-- The pass marks every root class of an untranslated layer and no other. -/
theorem rootClass_updateTextArraySequenceSpec (tc : CtfTraceClass) (r : RootClassRef) :
    (updateTextArraySequenceSpec tc).rootClass r = (tc.rootClass r).map (markTextArrays (tc.marksRoot r)) := by
  obtain ⟨packetHeaderFc, streamClasses, translated⟩ := tc
  cases r with
  | packetHeader =>
      cases translated <;> simp [updateTextArraySequenceSpec, CtfTraceClass.mapUntranslatedRoots, rootClass,
        marksRoot, markTextArrays_true]
  | packetContext i | eventHeader i | eventCommonContext i =>
      cases found : streamClasses[i]? with
      | none => simp [updateTextArraySequenceSpec, CtfTraceClass.mapUntranslatedRoots, rootClass, found]
      | some sc =>
          cases translated : sc.isTranslated <;>
            simp [updateTextArraySequenceSpec, CtfTraceClass.mapUntranslatedRoots, rootClass, marksRoot, found,
              CtfStreamClass.mapUntranslatedRoots, translated, markTextArrays_true]
  | eventSpecContext i j | eventPayload i j =>
      cases found : streamClasses[i]? with
      | none =>
          simp [updateTextArraySequenceSpec, CtfTraceClass.mapUntranslatedRoots, rootClass, eventClass, found]
      | some sc =>
          cases foundEvent : sc.eventClasses[j]? with
          | none =>
              simp [updateTextArraySequenceSpec, CtfTraceClass.mapUntranslatedRoots, rootClass, eventClass, found,
                CtfStreamClass.mapUntranslatedRoots, foundEvent]
          | some ec =>
              cases translated : ec.isTranslated <;>
                simp [updateTextArraySequenceSpec, CtfTraceClass.mapUntranslatedRoots, rootClass, eventClass,
                  marksRoot, found, CtfStreamClass.mapUntranslatedRoots, foundEvent, translated,
                  CtfEventClass.mapUntranslatedRoots, markTextArrays_true]

/-- The pass keeps the layers and their translated flags. -/
theorem shape_updateTextArraySequenceSpec (tc : CtfTraceClass) : (updateTextArraySequenceSpec tc).shape = tc.shape := by
  simp [shape, mapRoots, updateTextArraySequenceSpec, CtfTraceClass.mapUntranslatedRoots, CtfStreamClass.mapRoots,
    CtfStreamClass.mapUntranslatedRoots, CtfEventClass.mapRoots, CtfEventClass.mapUntranslatedRoots, apply_ite,
    Option.map_map, Function.comp_def]

/-- Which roots the pass marks depends only on the layers and their flags. -/
theorem marksRoot_shape (tc : CtfTraceClass) (r : RootClassRef) : tc.shape.marksRoot r = tc.marksRoot r := by
  obtain ⟨packetHeaderFc, streamClasses, translated⟩ := tc
  cases r with
  | packetHeader => rfl
  | packetContext i | eventHeader i | eventCommonContext i =>
      simp only [shape, mapRoots, marksRoot, List.getElem?_map]
      cases streamClasses[i]? <;> rfl
  | eventSpecContext i j | eventPayload i j =>
      simp only [shape, mapRoots, marksRoot, eventClass, List.getElem?_map]
      cases streamClasses[i]? with
      | none => rfl
      | some sc =>
          simp only [Option.map_some', Option.some_bind, CtfStreamClass.mapRoots, List.getElem?_map]
          cases sc.eventClasses[j]? <;> rfl

theorem marksRoot_modifyRootClass (tc : CtfTraceClass) (f : CtfFieldClass → CtfFieldClass) (r r' : RootClassRef) :
    (tc.modifyRootClass f r).marksRoot r' = tc.marksRoot r' := by
  rw [← marksRoot_shape, shape_modifyRootClass, marksRoot_shape]

/-- A store of the resolver into a root class and the pass commute: the pass
marks the stored class as the layer of its root says. -/
theorem updateTextArraySequenceSpec_modifyRootClass (tc : CtfTraceClass) (r : RootClassRef) (fc : CtfFieldClass) :
    updateTextArraySequenceSpec (tc.modifyRootClass (fun _ => fc) r) =
      (updateTextArraySequenceSpec tc).modifyRootClass (fun _ => markTextArrays (tc.marksRoot r) fc) r := by
  apply CtfTraceClass.ext_rootClass
  · rw [shape_updateTextArraySequenceSpec, shape_modifyRootClass, shape_modifyRootClass,
      shape_updateTextArraySequenceSpec]
  · intro r'
    rw [rootClass_updateTextArraySequenceSpec, rootClass_modifyRootClass, rootClass_modifyRootClass,
      rootClass_updateTextArraySequenceSpec, marksRoot_modifyRootClass]
    split
    · subst r'
      simp [Option.map_map, Function.comp_def]
    · rfl

/-- A call of `resolve_root_class` with its stream and event classes as the
pass leaves them. -/
def RootCall.markTextArrays (call : RootCall) : RootCall :=
  { call with
    sc := call.sc.map (·.mapUntranslatedRoots (mapNodes markTextArray))
    ec := call.ec.map (·.mapUntranslatedRoots (mapNodes markTextArray)) }

theorem eventClassesCalls_updateTextArraySequence (sc : CtfStreamClass) (scIndex : Nat) :
    ∀ (ecs : List CtfEventClass) (ecIndex : Nat),
      eventClassesCalls (sc.mapUntranslatedRoots (mapNodes markTextArray)) scIndex
          (ecs.map (·.mapUntranslatedRoots (mapNodes markTextArray))) ecIndex =
        (eventClassesCalls sc scIndex ecs ecIndex).map RootCall.markTextArrays
  | [], _ => rfl
  | ec :: ecs, ecIndex => by
      simp only [List.map_cons, eventClassesCalls, List.map_append,
        eventClassesCalls_updateTextArraySequence sc scIndex ecs]
      congr 1
      unfold eventClassCalls
      rw [CtfEventClass.isTranslated_mapUntranslatedRoots]
      cases ec.isTranslated <;> rfl

theorem streamClassesCalls_updateTextArraySequence :
    ∀ (scs : List CtfStreamClass) (scIndex : Nat),
      streamClassesCalls (scs.map (·.mapUntranslatedRoots (mapNodes markTextArray))) scIndex =
        (streamClassesCalls scs scIndex).map RootCall.markTextArrays
  | [], _ => rfl
  | sc :: scs, scIndex => by
      simp only [List.map_cons, streamClassesCalls, List.map_append, streamClassesCalls_updateTextArraySequence scs]
      congr 1
      unfold streamClassCalls
      rw [List.map_append, ← eventClassesCalls_updateTextArraySequence]
      cases translated : sc.isTranslated <;>
        simp [CtfStreamClass.mapUntranslatedRoots, translated, RootCall.markTextArrays]

/-- The resolver makes the same calls on the trace class the pass leaves, with
the stream and event classes as the pass leaves them. -/
theorem rootCalls_updateTextArraySequenceSpec (tc : CtfTraceClass) :
    rootCalls (updateTextArraySequenceSpec tc) = (rootCalls tc).map RootCall.markTextArrays := by
  unfold rootCalls
  rw [List.map_append, ← streamClassesCalls_updateTextArraySequence]
  simp only [updateTextArraySequenceSpec, CtfTraceClass.mapUntranslatedRoots]
  split <;> rfl

end TraceClass

end Btrace.Ctf
