import Btrace.Ctf.TextArrayMarks
import Btrace.Ctf.Resolve.Completeness

set_option autoImplicit false

/- `ctf_trace_class_resolve_field_classes` and
`ctf_trace_class_update_text_array_sequence` commute. Every lookup of the
resolver finds on the marked trace class what it finds on the trace class
(`nodeTarget_markTextArrays`, through the characterisation of a successful
lookup by the reference rules), so each call of `resolve_root_class` rebuilds
the marked copy of what it rebuilds (`runRootCall_updateTextArraySequenceSpec`),
and the fold of the calls commutes with the pass. -/
namespace Btrace.Ctf

open CtfFieldClass CtfTraceClass

section Lookups

variable (marked : Bool)

/-- Two outcomes that are never an assertion failure are equal when they
succeed with the same values. -/
theorem except_eq_of_ok_iff {α : Type} {x y : Except ResolveError α} (notAborted : x ≠ .error .aborted)
    (notAborted' : y ≠ .error .aborted) (same : ∀ a, x = .ok a ↔ y = .ok a) : x = y := by
  cases x with
  | ok a => exact ((same a).1 rfl).symm
  | error e =>
      cases y with
      | ok b => cases (same b).2 rfl
      | error e' => cases e <;> cases e' <;> simp_all

/-- The class a spelled target path reaches, marked or not. -/
theorem reaches_markTextArrays_iff {targetRoot targetFc curFc : CtfFieldClass} {path : List Int}
    (typed : validateTargetFieldClass targetFc curFc = .ok ()) (named : ∀ x, path.getLast? = some x → 0 ≤ x) :
    (markTextArrays marked targetRoot).borrowFieldClassByPath path = some targetFc ∧
        ArraySteps (markTextArrays marked targetRoot) path ↔
      targetRoot.borrowFieldClassByPath path = some targetFc ∧ ArraySteps targetRoot path := by
  rw [arraySteps_markTextArrays]
  refine and_congr_left fun steps => ?_
  rw [borrowFieldClassByPath_markTextArrays marked path targetRoot
    (endsAtTextElement_of_lastNamed path targetRoot steps named)]
  constructor
  · intro reached
    obtain ⟨fc, found, rfl⟩ := Option.map_eq_some'.mp reached
    rw [found, markTextArrays_eq_self_of_validate marked typed]
  · intro reached
    rw [reached, Option.map_some', markTextArrays_of_validate marked typed]

theorem relativeSpelling_markTextArrays_iff {rootFc node : CtfFieldClass} {pos : List Int}
    (reached : rootFc.borrowFieldClassByPath pos = some node) (notText : isTextElement node = false)
    {ptokens : List String} {path : List Int} :
    RelativeSpelling (markTextArrays marked rootFc) pos ptokens path ↔ RelativeSpelling rootFc pos ptokens path := by
  have ancestors (k : Nat) := borrowFieldClassByPath_markTextArrays marked _ rootFc
    (endsAtTextElement_take pos rootFc node reached notText k)
  constructor
  · rintro ⟨k, ancestor, bound, tail, atAncestor, boundAt, rfl, spells, within, innermost⟩
    rw [ancestors] at atAncestor
    obtain ⟨unmarked, atUnmarked, rfl⟩ := Option.map_eq_some'.mp atAncestor
    refine ⟨k, unmarked, bound, tail, atUnmarked, boundAt, rfl, (spells_markTextArrays marked).1 spells, within, ?_⟩
    intro k' deeper bound' below found boundAt' tail' spells'
    exact innermost k' _ bound' below (by rw [ancestors, found]; rfl) boundAt' tail'
      ((spells_markTextArrays marked).2 spells')
  · rintro ⟨k, ancestor, bound, tail, atAncestor, boundAt, rfl, spells, within, innermost⟩
    refine ⟨k, markTextArrays marked ancestor, bound, tail, by rw [ancestors, atAncestor]; rfl, boundAt, rfl,
      (spells_markTextArrays marked).2 spells, within, ?_⟩
    intro k' deeper bound' below found boundAt' tail' spells'
    rw [ancestors] at found
    obtain ⟨unmarked, atUnmarked, rfl⟩ := Option.map_eq_some'.mp found
    exact innermost k' unmarked bound' below atUnmarked boundAt' tail' ((spells_markTextArrays marked).1 spells')

theorem spellsReference_markTextArrays_iff {rootOf rootOf' : CtfScope → Option CtfFieldClass}
    (agree : ∀ scope, ∃ c, rootOf' scope = (rootOf scope).map (markTextArrays c)) {rootScope : CtfScope}
    {rootFc node : CtfFieldClass} {pos : List Int} (reached : rootFc.borrowFieldClassByPath pos = some node)
    (notText : isTextElement node = false) {pathstr : String} {target : CtfFieldPath} :
    SpellsReference rootOf' rootScope (markTextArrays marked rootFc) pos pathstr target ↔
      SpellsReference rootOf rootScope rootFc pos pathstr target := by
  unfold SpellsReference
  refine exists_congr fun ptokens => and_congr_right fun _ => ?_
  split
  · rename_i scope _
    obtain ⟨c, same⟩ := agree scope
    simp only [same, Option.map_eq_some', exists_exists_and_eq_and, spells_markTextArrays]
  · exact and_congr_right fun _ => relativeSpelling_markTextArrays_iff marked reached notText

/-- What the resolver establishes about a target holds in the marked trace
class exactly when it holds in the trace class. -/
theorem foundTarget_markTextArrays_iff {rootOf rootOf' : CtfScope → Option CtfFieldClass}
    (agree : ∀ scope, ∃ c, rootOf' scope = (rootOf scope).map (markTextArrays c)) {rootScope : CtfScope}
    {rootFc node : CtfFieldClass} {pos : List Int} (reached : rootFc.borrowFieldClassByPath pos = some node)
    (kind : node.isSequenceOrVariant = true) {target : CtfFieldPath} {targetFc : CtfFieldClass} :
    FoundTarget rootOf' rootScope (markTextArrays marked rootFc) pos (markTextArrays marked node) target targetFc ↔
      FoundTarget rootOf rootScope rootFc pos node target targetFc := by
  have notText : isTextElement node = false := by
    cases node <;> simp_all [isSequenceOrVariant, isTextElement, asInt]
  have spelled (pathstr : String) :
      SpellsReference rootOf' rootScope (markTextArrays marked rootFc) pos pathstr target ↔
        SpellsReference rootOf rootScope rootFc pos pathstr target :=
    spellsReference_markTextArrays_iff marked agree reached notText
  have reaches (typed : validateTargetFieldClass targetFc node = .ok ())
      (named : ∀ x, target.path.getLast? = some x → 0 ≤ x) :
      (∃ targetRoot, rootOf' target.root = some targetRoot ∧
          targetRoot.borrowFieldClassByPath target.path = some targetFc ∧ ArraySteps targetRoot target.path) ↔
        ∃ targetRoot, rootOf target.root = some targetRoot ∧
          targetRoot.borrowFieldClassByPath target.path = some targetFc ∧ ArraySteps targetRoot target.path := by
    obtain ⟨c, same⟩ := agree target.root
    simp only [same, Option.map_eq_some', exists_exists_and_eq_and]
    exact exists_congr fun _ => and_congr_right fun _ => reaches_markTextArrays_iff c typed named
  constructor
  · rintro ⟨nonEmpty, order, before, found, typed, pathstr, reference, spells⟩
    rw [validateTargetFieldClass_markTextArrays] at typed
    rw [reference_markTextArrays] at reference
    have spells' := (spelled pathstr).1 spells
    exact ⟨nonEmpty, order, before, (reaches typed spells'.lastNamed).1 found, typed, pathstr, reference, spells'⟩
  · rintro ⟨nonEmpty, order, before, found, typed, pathstr, reference, spells⟩
    refine ⟨nonEmpty, order, before, (reaches typed spells.lastNamed).2 found, by simpa using typed, pathstr,
      by simpa using reference, (spelled pathstr).2 spells⟩

@[simp] theorem RootCall.markTextArrays_scopes (call : RootCall) : call.markTextArrays.scopes = call.scopes := rfl

@[simp] theorem RootCall.markTextArrays_rootScope (call : RootCall) :
    call.markTextArrays.rootScope = call.rootScope := rfl

/-- Every lookup of a call finds on the marked trace class what it finds on
the trace class. -/
theorem nodeTarget_markTextArrays {u : CtfTraceClass} {call : RootCall} {rootRef : RootClassRef}
    {rootFc : CtfFieldClass} (scope : call.scopes.get call.rootScope = some rootRef)
    (root : u.rootClass rootRef = some rootFc) {pos : List Int} {node : CtfFieldClass}
    (reached : rootFc.borrowFieldClassByPath pos = some node) (steps : ArraySteps rootFc pos)
    (kind : node.isSequenceOrVariant = true) :
    nodeTarget (call.markTextArrays.context (updateTextArraySequenceSpec u))
        (markTextArrays (u.marksRoot rootRef) rootFc) pos (markTextArrays (u.marksRoot rootRef) node) =
      nodeTarget (call.context u) rootFc pos node := by
  have notText : isTextElement node = false := by
    cases node <;> simp_all [isSequenceOrVariant, isTextElement, asInt]
  have here : AtNode { call.context u with fieldClassStack := ancestorFrames rootFc pos } rootRef rootFc pos node :=
    ⟨scope, root, reached, steps, rfl⟩
  have there : AtNode
      { call.markTextArrays.context (updateTextArraySequenceSpec u) with
        fieldClassStack := ancestorFrames (markTextArrays (u.marksRoot rootRef) rootFc) pos }
      rootRef (markTextArrays (u.marksRoot rootRef) rootFc) pos (markTextArrays (u.marksRoot rootRef) node) :=
    ⟨scope, by simp [RootCall.context, ResolveContext.idle, rootClass_updateTextArraySequenceSpec, root],
      by rw [borrowFieldClassByPath_markTextArrays _ pos rootFc (endsAtTextElement_of_reached reached notText),
        reached, Option.map_some'],
      (arraySteps_markTextArrays _ pos rootFc).2 steps, rfl⟩
  have agree : ∀ scope, ∃ c,
      borrowClassFromCtx { call.markTextArrays.context (updateTextArraySequenceSpec u) with
          fieldClassStack := ancestorFrames (markTextArrays (u.marksRoot rootRef) rootFc) pos } scope =
        (borrowClassFromCtx { call.context u with fieldClassStack := ancestorFrames rootFc pos } scope).map
          (markTextArrays c) := by
    intro scope
    cases pointer : call.scopes.get scope with
    | none => exact ⟨false, by simp [borrowClassFromCtx, RootCall.context, ResolveContext.idle, pointer]⟩
    | some r =>
        exact ⟨u.marksRoot r, by simp [borrowClassFromCtx, RootCall.context, ResolveContext.idle, pointer,
          rootClass_updateTextArraySequenceSpec]⟩
  unfold nodeTarget
  refine except_eq_of_ok_iff (resolveSequenceOrVariantTarget_ne_aborted there (by simpa using kind))
    (resolveSequenceOrVariantTarget_ne_aborted here kind) fun ⟨target, targetFc⟩ => ?_
  rw [resolveSequenceOrVariantTarget_eq_ok_iff there, resolveSequenceOrVariantTarget_eq_ok_iff here]
  refine and_congr (foundTarget_markTextArrays_iff _ agree reached kind) ?_
  -- the absolute rule reads the translated flags, which the pass keeps
  simp only [reference_markTextArrays, AbsoluteAvailable]
  refine forall_congr' fun _ => imp_congr_right fun _ => forall_congr' fun scope => imp_congr_right fun _ =>
    and_congr_left fun _ => ?_
  cases scope <;> simp only [absoluteRootAvailable, RootCall.context, ResolveContext.idle, RootCall.markTextArrays,
    updateTextArraySequenceSpec, CtfTraceClass.mapUntranslatedRoots]
  all_goals first
    | rfl
    | (cases call.sc <;> rfl)
    | (cases call.ec <;> simp)

end Lookups

section Rebuild

variable (marked : Bool) (target target' : List Int → CtfFieldClass → Except ResolveError (CtfFieldPath × CtfFieldClass))

/-- The lookups `target'` of the marked tree agree with the lookups `target`
of the tree at every sequence or variant a traversal from the class `fc` at
position `pos` reaches. -/
def LookupsAgree (pos : List Int) (fc : CtfFieldClass) : Prop :=
  ∀ rel node, fc.borrowFieldClassByPath rel = some node → ArraySteps fc rel → node.isSequenceOrVariant = true →
    target' (pos ++ rel) (markTextArrays marked node) = target (pos ++ rel) node

variable {marked target target'}

theorem LookupsAgree.here {pos : List Int} {fc : CtfFieldClass} (agree : LookupsAgree marked target target' pos fc)
    (kind : fc.isSequenceOrVariant = true) : target' pos (markTextArrays marked fc) = target pos fc := by
  simpa using agree [] fc rfl (arraySteps_nil fc) kind

theorem LookupsAgree.element {pos : List Int} {elemFc : CtfFieldClass} {isText : Bool}
    (agree : LookupsAgree marked target target' pos (.array elemFc isText)) :
    LookupsAgree marked target target' (pos ++ [-1]) elemFc := fun rel node reached steps kind => by
  simpa using agree (-1 :: rel) node reached ⟨rfl, steps⟩ kind

theorem LookupsAgree.member {pos : List Int} {members : List (String × CtfFieldClass)}
    (agree : LookupsAgree marked target target' pos (.struct members)) (k : Nat) (name : String)
    (child : CtfFieldClass) (member : members[k]? = some (name, child)) :
    LookupsAgree marked target target' (pos ++ [(k : Int)]) child := fun rel node reached steps kind => by
  have found : borrowMember (k : Int) members = some child := by simp [member]
  simpa using agree ((k : Int) :: rel) node (by simp [borrowFieldClassByPath, compoundBorrowFieldClassByIndex,
    found, reached]) (fun c found' => by rw [found] at found'; cases found'; exact steps) kind

/-- A variant's options are reached as a structure's members are. -/
theorem LookupsAgree.options {pos : List Int} {tagRef : String} {tagPath : CtfFieldPath}
    {tagFc : Option CtfFieldClassEnum} {options : List (String × CtfFieldClass)}
    (agree : LookupsAgree marked target target' pos (.variant tagRef tagPath tagFc options)) :
    LookupsAgree marked target target' pos (.struct options)
  | [], _, reached, _, kind => by cases reached; cases kind
  | index :: rel, node, reached, steps, kind => agree (index :: rel) node reached steps kind

/-- A sequence's element is reached as an array's element is. -/
theorem LookupsAgree.sequenceElement {pos : List Int} {elemFc : CtfFieldClass} {isText : Bool} {lengthRef : String}
    {lengthPath : CtfFieldPath} {lengthFc : Option CtfFieldClassInt}
    (agree : LookupsAgree marked target target' pos (.sequence elemFc isText lengthRef lengthPath lengthFc)) :
    LookupsAgree marked target target' pos (.array elemFc isText)
  | [], _, reached, _, kind => by cases reached; cases kind
  | index :: rel, node, reached, steps, kind => agree (index :: rel) node reached steps kind

theorem resolveTargets_of_isTextElement {fc : CtfFieldClass} (text : isTextElement fc = true) (pos : List Int) :
    resolveTargets target pos fc = .ok fc := by
  cases fc <;> first | rfl | simp [isTextElement, asInt] at text

theorem isTextElement_of_resolveTargets {pos : List Int} {fc fc' : CtfFieldClass}
    (resolved : resolveTargets target pos fc = .ok fc') : isTextElement fc' = isTextElement fc := by
  rw [← isTextElement_eraseTargets, eraseTargets_resolveTargets target pos fc fc' resolved, isTextElement_eraseTargets]

/-- The unsigned text element of a marked array or sequence is rebuilt as it
is, as the element of the unmarked one is. -/
theorem resolveTargets_textElement_markTextArrays {pos : List Int} {elemFc : CtfFieldClass}
    (text : (marked && isTextElement elemFc) = true) (wrap wrapText : CtfFieldClass → CtfFieldClass)
    (marks : markTextArrays marked (wrap elemFc) = wrapText (clearSigned elemFc)) :
    wrapText <$> resolveTargets target' (pos ++ [-1]) (clearSigned elemFc) =
      (wrap <$> resolveTargets target (pos ++ [-1]) elemFc).map (markTextArrays marked) := by
  have elem := (Bool.and_eq_true_iff.mp text).2
  rw [resolveTargets_of_isTextElement (by rwa [isTextElement_clearSigned]), resolveTargets_of_isTextElement elem]
  simp [Functor.map, Except.map, marks]

/-- Any other element is rebuilt to the marked copy of what it is rebuilt to
in the tree. -/
theorem resolveTargets_plainElement_markTextArrays {pos : List Int} {elemFc : CtfFieldClass}
    (element : resolveTargets target' (pos ++ [-1]) (markTextArrays marked elemFc) =
      (resolveTargets target (pos ++ [-1]) elemFc).map (markTextArrays marked))
    (wrap : CtfFieldClass → CtfFieldClass)
    (marks : ∀ elemFc', isTextElement elemFc' = isTextElement elemFc →
      markTextArrays marked (wrap elemFc') = wrap (markTextArrays marked elemFc')) :
    wrap <$> resolveTargets target' (pos ++ [-1]) (markTextArrays marked elemFc) =
      (wrap <$> resolveTargets target (pos ++ [-1]) elemFc).map (markTextArrays marked) := by
  rw [element]
  cases resolved : resolveTargets target (pos ++ [-1]) elemFc with
  | error e => rfl
  | ok elemFc' => simp [Functor.map, Except.map, marks elemFc' (isTextElement_of_resolveTargets resolved)]

mutual
/-- The rebuild of the marked tree is the marked rebuild of the tree, when the
lookups agree at every sequence and variant. -/
theorem resolveTargets_markTextArrays :
    ∀ (pos : List Int) (fc : CtfFieldClass), LookupsAgree marked target target' pos fc →
      resolveTargets target' pos (markTextArrays marked fc) = (resolveTargets target pos fc).map (markTextArrays marked)
  | _, .int _, _ | _, .enum _, _ | _, .float, _ | _, .string, _ => by simp [resolveTargets, Except.map, pure, Except.pure]
  | pos, .struct members, agree => by
      rw [markTextArrays_struct]
      simp only [resolveTargets]
      rw [resolveTargetsMembers_markTextArrays pos members 0 fun k => by simpa using agree.member k]
      cases resolveTargetsMembers target pos members 0 <;> simp [Functor.map, Except.map]
  | pos, .variant tagRef tagPath tagFc options, agree => by
      have atNode := agree.here rfl
      rw [markTextArrays_variant] at atNode ⊢
      simp only [resolveTargets, atNode]
      rw [resolveTargetsMembers_markTextArrays pos options 0 fun k => by simpa using agree.options.member k]
      cases target pos (.variant tagRef tagPath tagFc options) with
      | error e => rfl
      | ok found => cases resolveTargetsMembers target pos options 0 <;> simp [Functor.map, Except.map, bind, Except.bind]
  | pos, .array elemFc isText, agree => by
      rw [markTextArrays_array]
      split
      · rename_i text
        simp only [resolveTargets]
        exact resolveTargets_textElement_markTextArrays text _ _ (by rw [markTextArrays_array, if_pos text])
      · rename_i plain
        simp only [resolveTargets]
        exact resolveTargets_plainElement_markTextArrays (resolveTargets_markTextArrays _ elemFc agree.element) _
          fun _ same => by rw [markTextArrays_array, if_neg (by rwa [same])]
  | pos, .sequence elemFc isText lengthRef lengthPath lengthFc, agree => by
      have atNode := agree.here rfl
      rw [markTextArrays_sequence] at atNode ⊢
      split at atNode
      · rename_i text
        rw [if_pos text]
        simp only [resolveTargets, atNode]
        cases target pos (.sequence elemFc isText lengthRef lengthPath lengthFc) with
        | error e => rfl
        | ok found =>
            exact resolveTargets_textElement_markTextArrays text _ _ (by rw [markTextArrays_sequence, if_pos text])
      · rename_i plain
        rw [if_neg plain]
        simp only [resolveTargets, atNode]
        cases target pos (.sequence elemFc isText lengthRef lengthPath lengthFc) with
        | error e => rfl
        | ok found =>
            exact resolveTargets_plainElement_markTextArrays
              (resolveTargets_markTextArrays _ elemFc agree.sequenceElement.element) _
              fun _ same => by rw [markTextArrays_sequence, if_neg (by rwa [same])]
termination_by structural _ fc => fc

theorem resolveTargetsMembers_markTextArrays :
    ∀ (pos : List Int) (members : List (String × CtfFieldClass)) (index : Nat),
      (∀ k name child, members[k]? = some (name, child) →
        LookupsAgree marked target target' (pos ++ [((index + k : Nat) : Int)]) child) →
      resolveTargetsMembers target' pos (members.map fun m => (m.1, markTextArrays marked m.2)) index =
        (resolveTargetsMembers target pos members index).map fun ms => ms.map fun m => (m.1, markTextArrays marked m.2)
  | _, [], _, _ => rfl
  | pos, (name, child) :: members, index, agree => by
      simp only [List.map_cons, resolveTargetsMembers]
      rw [resolveTargets_markTextArrays _ child (by simpa using agree 0 name child (by simp)),
        resolveTargetsMembers_markTextArrays pos members (index + 1) fun k name' child' member => by
          simpa [Nat.add_assoc, Nat.add_comm 1 k] using agree (k + 1) name' child' (by simpa using member)]
      cases resolveTargets target (pos ++ [(index : Int)]) child with
      | error e => rfl
      | ok child' => cases resolveTargetsMembers target pos members (index + 1) <;> rfl
termination_by structural _ members => members
end

end Rebuild

section Run

/-- One call of `resolve_root_class` and the pass commute: on the marked trace
class the call stores the marked copy of what it stores, or fails where it fails. -/
theorem runRootCall_updateTextArraySequenceSpec (u : CtfTraceClass) (call : RootCall) :
    runRootCall (updateTextArraySequenceSpec u) call.markTextArrays = (runRootCall u call).map updateTextArraySequenceSpec := by
  unfold runRootCall
  simp only [RootCall.markTextArrays_scopes, RootCall.markTextArrays_rootScope]
  cases scope : call.scopes.get call.rootScope with
  | none => rfl
  | some rootRef =>
      simp only [rootClass_updateTextArraySequenceSpec]
      cases root : u.rootClass rootRef with
      | none => rfl
      | some rootFc =>
          simp only [Option.map_some']
          rw [resolveTargets_markTextArrays [] rootFc fun rel node reached steps kind => by
            simpa using nodeTarget_markTextArrays scope root reached steps kind]
          cases resolveTargets (nodeTarget (call.context u) rootFc) [] rootFc with
          | error e => rfl
          | ok rootFc' => simp [Except.map, updateTextArraySequenceSpec_modifyRootClass]

theorem runRootCalls_updateTextArraySequenceSpec :
    ∀ (u : CtfTraceClass) (calls : List RootCall),
      runRootCalls (updateTextArraySequenceSpec u) (calls.map RootCall.markTextArrays) =
        (runRootCalls u calls).map updateTextArraySequenceSpec
  | _, [] => rfl
  | u, call :: calls => by
      rw [List.map_cons, runRootCalls_cons, runRootCalls_cons, runRootCall_updateTextArraySequenceSpec]
      cases runRootCall u call with
      | error e => rfl
      | ok u' => exact runRootCalls_updateTextArraySequenceSpec u' calls

/-- `ctf_trace_class_update_text_array_sequence` and
`ctf_trace_class_resolve_field_classes` commute. The text-array pass changes
only `is_text` flags and the signedness of text elements, and the resolver reads
neither: a reference reaches no element of an array, and the type check reads
only the referring class's kind. So running the text-array pass first does not
change what the resolver returns, and after a successful run the trace class is
the one the resolver and then the pass leave. -/
theorem ctfTraceClassResolveFieldClasses_updateTextArraySequence (tc : CtfTraceClass) :
    (ctfTraceClassResolveFieldClasses (ctfTraceClassUpdateTextArraySequence tc).2).1 =
        (ctfTraceClassResolveFieldClasses tc).1 ∧
      ∀ tc', ctfTraceClassResolveFieldClasses tc = (.ok (), tc') →
        ctfTraceClassResolveFieldClasses (ctfTraceClassUpdateTextArraySequence tc).2 =
          (.ok (), (ctfTraceClassUpdateTextArraySequence tc').2) := by
  have folded : runRootCalls (updateTextArraySequenceSpec tc) (rootCalls (updateTextArraySequenceSpec tc)) =
      (runRootCalls tc (rootCalls tc)).map updateTextArraySequenceSpec := by
    rw [rootCalls_updateTextArraySequenceSpec, runRootCalls_updateTextArraySequenceSpec]
  rw [ctfTraceClassUpdateTextArraySequence_eq]
  refine ⟨?_, fun tc' ran => ?_⟩
  · rw [ctfTraceClassResolveFieldClasses_fst, ctfTraceClassResolveFieldClasses_fst, folded]
    cases runRootCalls tc (rootCalls tc) <;> rfl
  · rw [ctfTraceClassUpdateTextArraySequence_eq]
    apply ctfTraceClassResolveFieldClasses_of_ok
    rw [folded, runRootCalls_of_resolveFieldClasses ran]
    rfl

/-- A packet header `{ len, data : sequence<uint8>[len] }` whose sequence of
UTF-8 bytes the pass marks as text: resolving and marking in either order gives
the same trace class. -/
theorem packetHeaderText_passes_commute :
    ctfTraceClassResolveFieldClasses ⟨some (lengthBeforeSequence "len"), [], false⟩ =
        (.ok (), ⟨some (lengthBeforeSequenceResolved "len" .packetHeader), [], false⟩) ∧
      ctfTraceClassResolveFieldClasses (ctfTraceClassUpdateTextArraySequence
          ⟨some (lengthBeforeSequence "len"), [], false⟩).2 =
        (.ok (), (ctfTraceClassUpdateTextArraySequence
          ⟨some (lengthBeforeSequenceResolved "len" .packetHeader), [], false⟩).2) :=
  have ran : ctfTraceClassResolveFieldClasses ⟨some (lengthBeforeSequence "len"), [], false⟩ =
      (.ok (), ⟨some (lengthBeforeSequenceResolved "len" .packetHeader), [], false⟩) := rfl
  ⟨ran, (ctfTraceClassResolveFieldClasses_updateTextArraySequence _).2 _ ran⟩

end Run

end Btrace.Ctf
