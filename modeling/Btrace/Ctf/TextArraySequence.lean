import Btrace.Ctf.FieldClass

set_option autoImplicit false

/- `ctf-meta-update-text-array-sequence.cpp`: an array or sequence of 8-bit,
byte-aligned UTF-8 integers becomes a text array, and its element becomes
unsigned. The pass returns the `int` of its callees and stops at the first
non-zero one (`goto end`); the classes it changed stay changed. -/
namespace Btrace.Ctf

/-- `ret = call; if (ret) goto end; rest`. -/
def seqIfZero {α : Type} (first : Int × α) (next : α → Int × α) : Int × α :=
  if first.1 = 0 then next first.2 else first

@[simp] theorem seqIfZero_zero {α : Type} (value : α) (next : α → Int × α) :
    seqIfZero (0, value) next = next value := rfl

/-- The test and the store at an array or sequence of
`set_text_array_sequence_field_class`: an integer or enumeration element with
alignment 8, size 8 and UTF-8 encoding, made unsigned. -/
def textElement : CtfFieldClass → Option CtfFieldClass
  | .int intFc =>
      if intFc.alignment = 8 ∧ intFc.size = 8 ∧ intFc.encoding = .utf8 then
        some (.int { intFc with isSigned := false })
      else none
  | .enum enumFc =>
      if enumFc.base.alignment = 8 ∧ enumFc.base.size = 8 ∧ enumFc.base.encoding = .utf8 then
        some (.enum ⟨{ enumFc.base with isSigned := false }⟩)
      else none
  | _ => none

mutual
/-- `set_text_array_sequence_field_class`. At a text array it then visits the
integer element, which returns 0 and changes nothing. -/
def setTextArraySequenceFieldClass : CtfFieldClass → Int × CtfFieldClass
  | .struct members =>
      let (ret, members) := setTextArraySequenceMembers members
      (ret, .struct members)
  | .variant tagRef tagPath tagFc options =>
      let (ret, options) := setTextArraySequenceMembers options
      (ret, .variant tagRef tagPath tagFc options)
  | .array elemFc isText =>
      match textElement elemFc with
      | some textElemFc => (0, .array textElemFc true)
      | none =>
          let (ret, elemFc) := setTextArraySequenceFieldClass elemFc
          (ret, .array elemFc isText)
  | .sequence elemFc isText lengthRef lengthPath lengthFc =>
      match textElement elemFc with
      | some textElemFc => (0, .sequence textElemFc true lengthRef lengthPath lengthFc)
      | none =>
          let (ret, elemFc) := setTextArraySequenceFieldClass elemFc
          (ret, .sequence elemFc isText lengthRef lengthPath lengthFc)
  | fc => (0, fc)

/-- The member and option loops of `set_text_array_sequence_field_class`. -/
def setTextArraySequenceMembers :
    List (String × CtfFieldClass) → Int × List (String × CtfFieldClass)
  | [] => (0, [])
  | (name, fc) :: members =>
      let (ret, fc) := setTextArraySequenceFieldClass fc
      if ret = 0 then
        let (ret, members) := setTextArraySequenceMembers members
        (ret, (name, fc) :: members)
      else (ret, (name, fc) :: members)
end

/-- A call on a root class, which may be null. -/
def setTextArraySequenceRoot : Option CtfFieldClass → Int × Option CtfFieldClass
  | some fc => let (ret, fc) := setTextArraySequenceFieldClass fc; (ret, some fc)
  | none => (0, none)

/-- The body of the event-class loop: a translated event class is skipped. -/
def updateTextArraySequenceEventClass (ec : CtfEventClass) : Int × CtfEventClass :=
  if ec.isTranslated then (0, ec)
  else
    seqIfZero ((setTextArraySequenceRoot ec.specContextFc).map id
        fun fc => { ec with specContextFc := fc }) fun ec =>
      (setTextArraySequenceRoot ec.payloadFc).map id fun fc => { ec with payloadFc := fc }

/-- The event-class loop, up to the first non-zero return. -/
def updateTextArraySequenceEventClasses : List CtfEventClass → Int × List CtfEventClass
  | [] => (0, [])
  | ec :: ecs =>
      let (ret, ec) := updateTextArraySequenceEventClass ec
      if ret = 0 then
        let (ret, ecs) := updateTextArraySequenceEventClasses ecs
        (ret, ec :: ecs)
      else (ret, ec :: ecs)

/-- The body of the stream-class loop: the three roots of an untranslated
stream class, then its event classes whatever its flag. -/
def updateTextArraySequenceStreamClass (sc : CtfStreamClass) : Int × CtfStreamClass :=
  let roots : Int × CtfStreamClass :=
    if sc.isTranslated then (0, sc)
    else
      seqIfZero ((setTextArraySequenceRoot sc.packetContextFc).map id
          fun fc => { sc with packetContextFc := fc }) fun sc =>
        seqIfZero ((setTextArraySequenceRoot sc.eventHeaderFc).map id
            fun fc => { sc with eventHeaderFc := fc }) fun sc =>
          (setTextArraySequenceRoot sc.eventCommonContextFc).map id
            fun fc => { sc with eventCommonContextFc := fc }
  seqIfZero roots fun sc =>
    (updateTextArraySequenceEventClasses sc.eventClasses).map id
      fun ecs => { sc with eventClasses := ecs }

/-- The stream-class loop, up to the first non-zero return. -/
def updateTextArraySequenceStreamClasses : List CtfStreamClass → Int × List CtfStreamClass
  | [] => (0, [])
  | sc :: scs =>
      let (ret, sc) := updateTextArraySequenceStreamClass sc
      if ret = 0 then
        let (ret, scs) := updateTextArraySequenceStreamClasses scs
        (ret, sc :: scs)
      else (ret, sc :: scs)

/-- `ctf_trace_class_update_text_array_sequence`: its return value and the
trace class as it left it. -/
def ctfTraceClassUpdateTextArraySequence (tc : CtfTraceClass) : Int × CtfTraceClass :=
  let header : Int × CtfTraceClass :=
    if tc.isTranslated then (0, tc)
    else (setTextArraySequenceRoot tc.packetHeaderFc).map id fun fc => { tc with packetHeaderFc := fc }
  seqIfZero header fun tc =>
    (updateTextArraySequenceStreamClasses tc.streamClasses).map id
      fun scs => { tc with streamClasses := scs }

/-! ## The reference transformation -/

/-- The condition on an element class: an integer or enumeration with
alignment 8, size 8 and UTF-8 encoding. -/
def isTextElement (elemFc : CtfFieldClass) : Bool :=
  match elemFc.asInt with
  | some intFc => intFc.alignment == 8 && intFc.size == 8 && intFc.encoding == .utf8
  | none => false

/-- The element class with `is_signed = false`. -/
def clearSigned : CtfFieldClass → CtfFieldClass
  | .int intFc => .int { intFc with isSigned := false }
  | .enum enumFc => .enum ⟨{ enumFc.base with isSigned := false }⟩
  | fc => fc

/-- One node of the transformation: an array or sequence of text elements gets
`is_text = true` and an unsigned element. -/
def markTextArray : CtfFieldClass → CtfFieldClass
  | .array elemFc isText =>
      if isTextElement elemFc then .array (clearSigned elemFc) true else .array elemFc isText
  | .sequence elemFc isText lengthRef lengthPath lengthFc =>
      if isTextElement elemFc then .sequence (clearSigned elemFc) true lengthRef lengthPath lengthFc
      else .sequence elemFc isText lengthRef lengthPath lengthFc
  | fc => fc

/-- `f` on both roots of an untranslated event class. -/
def CtfEventClass.mapUntranslatedRoots (f : CtfFieldClass → CtfFieldClass) (ec : CtfEventClass) :
    CtfEventClass :=
  if ec.isTranslated then ec
  else { ec with specContextFc := ec.specContextFc.map f, payloadFc := ec.payloadFc.map f }

/-- `f` on the three roots of an untranslated stream class and on the roots of
its untranslated event classes, whatever the stream's flag. -/
def CtfStreamClass.mapUntranslatedRoots (f : CtfFieldClass → CtfFieldClass) (sc : CtfStreamClass) :
    CtfStreamClass :=
  { sc with
    packetContextFc := if sc.isTranslated then sc.packetContextFc else sc.packetContextFc.map f
    eventHeaderFc := if sc.isTranslated then sc.eventHeaderFc else sc.eventHeaderFc.map f
    eventCommonContextFc :=
      if sc.isTranslated then sc.eventCommonContextFc else sc.eventCommonContextFc.map f
    eventClasses := sc.eventClasses.map (·.mapUntranslatedRoots f) }

/-- `f` on every root class of an untranslated layer of a trace class. -/
def CtfTraceClass.mapUntranslatedRoots (f : CtfFieldClass → CtfFieldClass) (tc : CtfTraceClass) :
    CtfTraceClass :=
  { tc with
    packetHeaderFc := if tc.isTranslated then tc.packetHeaderFc else tc.packetHeaderFc.map f
    streamClasses := tc.streamClasses.map (·.mapUntranslatedRoots f) }

/-- The reference transformation of a trace class. -/
def updateTextArraySequenceSpec (tc : CtfTraceClass) : CtfTraceClass :=
  tc.mapUntranslatedRoots (CtfFieldClass.mapNodes markTextArray)

open CtfFieldClass

theorem textElement_eq (fc : CtfFieldClass) :
    textElement fc = if isTextElement fc then some (clearSigned fc) else none := by
  cases fc <;> simp [textElement, isTextElement, asInt, clearSigned, and_assoc]

theorem isTextElement_clearSigned (fc : CtfFieldClass) :
    isTextElement (clearSigned fc) = isTextElement fc := by
  cases fc <;> rfl

theorem clearSigned_clearSigned (fc : CtfFieldClass) : clearSigned (clearSigned fc) = clearSigned fc := by
  cases fc <;> rfl

/-- A text element is an integer or enumeration, which the transformation leaves alone. -/
theorem mapNodes_markTextArray_of_isTextElement {fc : CtfFieldClass}
    (text : isTextElement fc = true) : fc.mapNodes markTextArray = fc := by
  cases fc <;> first | rfl | simp [isTextElement, asInt] at text

theorem isTextElement_mapNodes_markTextArray (fc : CtfFieldClass) :
    isTextElement (fc.mapNodes markTextArray) = isTextElement fc := by
  cases fc with
  | array _ _ => simp only [mapNodes, markTextArray]; split <;> rfl
  | sequence _ _ _ _ _ => simp only [mapNodes, markTextArray]; split <;> rfl
  | _ => rfl

mutual
/-- The pass on a class returns 0 and applies `markTextArray` at every node: it
misses no member, option or nested element. -/
theorem setTextArraySequenceFieldClass_eq :
    ∀ fc : CtfFieldClass, setTextArraySequenceFieldClass fc = (0, fc.mapNodes markTextArray)
  | .struct members => by
      simp [setTextArraySequenceFieldClass, setTextArraySequenceMembers_eq members, mapNodes,
        markTextArray]
  | .variant _ _ _ options => by
      simp [setTextArraySequenceFieldClass, setTextArraySequenceMembers_eq options, mapNodes,
        markTextArray]
  | .array elemFc _ => by
      by_cases text : isTextElement elemFc
      · simp [setTextArraySequenceFieldClass, textElement_eq, text, mapNodes, markTextArray,
          mapNodes_markTextArray_of_isTextElement text]
      · simp [setTextArraySequenceFieldClass, textElement_eq, text, mapNodes, markTextArray,
          setTextArraySequenceFieldClass_eq elemFc, isTextElement_mapNodes_markTextArray]
  | .sequence elemFc _ _ _ _ => by
      by_cases text : isTextElement elemFc
      · simp [setTextArraySequenceFieldClass, textElement_eq, text, mapNodes, markTextArray,
          mapNodes_markTextArray_of_isTextElement text]
      · simp [setTextArraySequenceFieldClass, textElement_eq, text, mapNodes, markTextArray,
          setTextArraySequenceFieldClass_eq elemFc, isTextElement_mapNodes_markTextArray]
  | .int _ | .enum _ | .float | .string => rfl

theorem setTextArraySequenceMembers_eq :
    ∀ members : List (String × CtfFieldClass),
      setTextArraySequenceMembers members = (0, mapNodesMembers markTextArray members)
  | [] => rfl
  | (_, fc) :: members => by
      simp [setTextArraySequenceMembers, setTextArraySequenceFieldClass_eq fc,
        setTextArraySequenceMembers_eq members, mapNodesMembers]
end

theorem setTextArraySequenceRoot_eq (root : Option CtfFieldClass) :
    setTextArraySequenceRoot root = (0, root.map (mapNodes markTextArray)) := by
  cases root <;> simp [setTextArraySequenceRoot, setTextArraySequenceFieldClass_eq]

theorem updateTextArraySequenceEventClasses_eq (ecs : List CtfEventClass) :
    updateTextArraySequenceEventClasses ecs =
      (0, ecs.map (·.mapUntranslatedRoots (mapNodes markTextArray))) := by
  induction ecs with
  | nil => rfl
  | cons ec ecs ih =>
      by_cases translated : ec.isTranslated <;>
        simp [updateTextArraySequenceEventClasses, updateTextArraySequenceEventClass, translated,
          setTextArraySequenceRoot_eq, ih, CtfEventClass.mapUntranslatedRoots]

theorem updateTextArraySequenceStreamClasses_eq (scs : List CtfStreamClass) :
    updateTextArraySequenceStreamClasses scs =
      (0, scs.map (·.mapUntranslatedRoots (mapNodes markTextArray))) := by
  induction scs with
  | nil => rfl
  | cons sc scs ih =>
      by_cases translated : sc.isTranslated <;>
        simp [updateTextArraySequenceStreamClasses, updateTextArraySequenceStreamClass, translated,
          setTextArraySequenceRoot_eq, updateTextArraySequenceEventClasses_eq, ih,
          CtfStreamClass.mapUntranslatedRoots]

/-- The pass returns 0 and leaves the reference transformation of the trace class. -/
theorem ctfTraceClassUpdateTextArraySequence_eq (tc : CtfTraceClass) :
    ctfTraceClassUpdateTextArraySequence tc = (0, updateTextArraySequenceSpec tc) := by
  by_cases translated : tc.isTranslated <;>
    simp [ctfTraceClassUpdateTextArraySequence, translated, setTextArraySequenceRoot_eq,
      updateTextArraySequenceStreamClasses_eq, updateTextArraySequenceSpec, CtfTraceClass.mapUntranslatedRoots]

mutual
theorem mapNodes_markTextArray_idem :
    ∀ fc : CtfFieldClass,
      (fc.mapNodes markTextArray).mapNodes markTextArray = fc.mapNodes markTextArray
  | .struct members => by
      simp [mapNodes, markTextArray, mapNodesMembers_markTextArray_idem members]
  | .variant _ _ _ options => by
      simp [mapNodes, markTextArray, mapNodesMembers_markTextArray_idem options]
  | .array elemFc _ => by
      by_cases text : isTextElement elemFc
      · have textSigned : isTextElement (clearSigned elemFc) = true := by
          rw [isTextElement_clearSigned, text]
        simp [mapNodes, markTextArray, mapNodes_markTextArray_of_isTextElement text,
          mapNodes_markTextArray_of_isTextElement textSigned, text, textSigned, clearSigned_clearSigned]
      · simp [mapNodes, markTextArray, isTextElement_mapNodes_markTextArray, text,
          mapNodes_markTextArray_idem elemFc]
  | .sequence elemFc _ _ _ _ => by
      by_cases text : isTextElement elemFc
      · have textSigned : isTextElement (clearSigned elemFc) = true := by
          rw [isTextElement_clearSigned, text]
        simp [mapNodes, markTextArray, mapNodes_markTextArray_of_isTextElement text,
          mapNodes_markTextArray_of_isTextElement textSigned, text, textSigned, clearSigned_clearSigned]
      · simp [mapNodes, markTextArray, isTextElement_mapNodes_markTextArray, text,
          mapNodes_markTextArray_idem elemFc]
  | .int _ | .enum _ | .float | .string => rfl

theorem mapNodesMembers_markTextArray_idem :
    ∀ members : List (String × CtfFieldClass),
      mapNodesMembers markTextArray (mapNodesMembers markTextArray members) =
        mapNodesMembers markTextArray members
  | [] => rfl
  | (_, fc) :: members => by
      simp [mapNodesMembers, mapNodes_markTextArray_idem fc,
        mapNodesMembers_markTextArray_idem members]
end

/-- Mapping an idempotent function over the untranslated roots is idempotent:
the flags that select the roots do not change. -/
theorem CtfTraceClass.mapUntranslatedRoots_idem {f : CtfFieldClass → CtfFieldClass}
    (idem : ∀ fc, f (f fc) = f fc) (tc : CtfTraceClass) :
    (tc.mapUntranslatedRoots f).mapUntranslatedRoots f = tc.mapUntranslatedRoots f := by
  have event (ec : CtfEventClass) :
      (ec.mapUntranslatedRoots f).mapUntranslatedRoots f = ec.mapUntranslatedRoots f := by
    by_cases translated : ec.isTranslated <;>
      simp [CtfEventClass.mapUntranslatedRoots, translated, Function.comp_def, idem]
  have stream (sc : CtfStreamClass) :
      (sc.mapUntranslatedRoots f).mapUntranslatedRoots f = sc.mapUntranslatedRoots f := by
    by_cases translated : sc.isTranslated <;>
      simp [CtfStreamClass.mapUntranslatedRoots, translated, Function.comp_def, idem, event]
  by_cases translated : tc.isTranslated <;>
    simp [CtfTraceClass.mapUntranslatedRoots, translated, Function.comp_def, idem, stream]

/-- `ctf_trace_class_update_text_array_sequence` returns 0 and applies the
reference transformation to every root class of an untranslated layer, and a
second run changes nothing. -/
theorem ctfTraceClassUpdateTextArraySequence_eq_spec (tc : CtfTraceClass) :
    ctfTraceClassUpdateTextArraySequence tc = (0, updateTextArraySequenceSpec tc) ∧
      ctfTraceClassUpdateTextArraySequence (ctfTraceClassUpdateTextArraySequence tc).2 =
        ctfTraceClassUpdateTextArraySequence tc := by
  have run (tc : CtfTraceClass) :
      ctfTraceClassUpdateTextArraySequence tc = (0, updateTextArraySequenceSpec tc) := by
    by_cases translated : tc.isTranslated <;>
      simp [ctfTraceClassUpdateTextArraySequence, translated, setTextArraySequenceRoot_eq,
        updateTextArraySequenceStreamClasses_eq, updateTextArraySequenceSpec,
        CtfTraceClass.mapUntranslatedRoots]
  refine ⟨run tc, ?_⟩
  rw [run, run, updateTextArraySequenceSpec, updateTextArraySequenceSpec,
    CtfTraceClass.mapUntranslatedRoots_idem mapNodes_markTextArray_idem]

end Btrace.Ctf
