import Btrace.Ctf.Resolve.FieldPath

set_option autoImplicit false

/- The traversal and the layer drivers of `ctf-meta-resolve.cpp`. A class being
resolved is handed down with a pointer to it (`FieldClassRef`), through which
the resolver stores the target it finds. -/
namespace Btrace.Ctf

/-- The reading part of `resolve_sequence_or_variant_field_class`: the target
field path and class of the reference held by `fc`, validated. -/
def resolveSequenceOrVariantTarget (fc : CtfFieldClass) (ctx : ResolveContext) :
    Except ResolveError (CtfFieldPath × CtfFieldClass) := do
  let pathstr ← match fc with
    | .sequence _ _ lengthRef _ _ => pure lengthRef
    | .variant tagRef _ _ _ => pure tagRef
    | _ => throw .aborted
  let targetFieldPath ← pathstrToFieldPath pathstr ctx
  let some targetFc ← fieldPathToFieldClass targetFieldPath ctx | throw .failed
  validateTargetFieldPath targetFieldPath targetFc fc ctx
  pure (targetFieldPath, targetFc)

/-- Modelled from the spec: `ctf_field_class_variant_set_tag_field_class` of
`ctf-meta.hpp`, which is not in the excerpt, with the stores at the end of
`resolve_sequence_or_variant_field_class`: the target path and class are set
in a sequence or variant, and other classes are left as they are. -/
def setTargetFieldClass (targetFieldPath : CtfFieldPath) (targetFc : CtfFieldClass) :
    CtfFieldClass → CtfFieldClass
  | .sequence elemFc isText lengthRef _ _ =>
      .sequence elemFc isText lengthRef targetFieldPath targetFc.asInt
  | .variant tagRef _ _ options => .variant tagRef targetFieldPath targetFc.asEnum options
  | fc => fc

/-- `resolve_sequence_or_variant_field_class`, storing through `fcRef`. -/
def resolveSequenceOrVariantFieldClass (fc : CtfFieldClass) (fcRef : FieldClassRef) :
    ResolveM Unit := do
  match resolveSequenceOrVariantTarget fc (← get) with
  | .ok (targetFieldPath, targetFc) =>
      modify fun ctx =>
        { ctx with tc := ctx.tc.modifyFieldClass fcRef (setTargetFieldClass targetFieldPath targetFc) }
  | .error e => throw e

mutual
/-- `resolve_field_class`: resolve a sequence or variant, then visit the
children of a compound class with the class pushed on the stack. The frame
holds the class as it was read; only its shape is read back. -/
def resolveFieldClass : CtfFieldClass → FieldClassRef → ResolveM Unit
  | fc@(.struct members), fcRef => do
      fieldClassStackPush fc
      resolveFieldClassMembers members fcRef 0
      fieldClassStackPop
  | fc@(.variant _ _ _ options), fcRef => do
      resolveSequenceOrVariantFieldClass fc fcRef
      fieldClassStackPush fc
      resolveFieldClassMembers options fcRef 0
      fieldClassStackPop
  | fc@(.array elemFc _), fcRef => do
      fieldClassStackPush fc
      fieldClassStackSetTopIndex (-1)
      resolveFieldClass elemFc (fcRef.child (-1))
      fieldClassStackPop
  | fc@(.sequence elemFc _ _ _ _), fcRef => do
      resolveSequenceOrVariantFieldClass fc fcRef
      fieldClassStackPush fc
      fieldClassStackSetTopIndex (-1)
      resolveFieldClass elemFc (fcRef.child (-1))
      fieldClassStackPop
  | _, _ => pure ()

/-- The child loop of `resolve_field_class` at a structure or variant, from
child `i` on. -/
def resolveFieldClassMembers : List (String × CtfFieldClass) → FieldClassRef → Nat → ResolveM Unit
  | [], _, _ => pure ()
  | (_, childFc) :: members, fcRef, i => do
      fieldClassStackSetTopIndex i
      resolveFieldClass childFc (fcRef.child i)
      resolveFieldClassMembers members fcRef (i + 1)
end

/-- `resolve_root_class`. A null root class is valid. The final reset of
`ctx->root_scope` is not read before the next call sets it again. -/
def resolveRootClass (rootScope : CtfScope) : ResolveM Unit := do
  if !(← get).fieldClassStack.isEmpty then throw .aborted
  modify fun ctx => { ctx with rootScope := rootScope }
  let ctx ← get
  match ctx.scopes.get rootScope with
  | none => pure ()
  | some rootRef =>
      match ctx.tc.rootClass rootRef with
      | none => pure ()
      | some fc => resolveFieldClass fc ⟨rootRef, []⟩

/-- `resolve_event_class_field_classes` for event class `ecIndex` of stream
class `scIndex`. It sets the specific-context scope but resolves the root
scope `CTF_SCOPE_EVENT_COMMON_CONTEXT`, as the source does; the scopes and `ec`
are reset on both outcomes. -/
def resolveEventClassFieldClasses (scIndex ecIndex : Nat) (ec : CtfEventClass) :
    ResolveM Unit := do
  let ctx ← get
  if ctx.scopes.eventSpecContext.isSome || ctx.scopes.eventPayload.isSome then throw .aborted
  try
    if !ec.isTranslated then
      modify fun ctx => { ctx with
        ec := some ec
        scopes := { ctx.scopes with eventSpecContext := some (.eventSpecContext scIndex ecIndex) } }
      resolveRootClass .eventCommonContext
      modify fun ctx => { ctx with
        scopes := { ctx.scopes with eventPayload := some (.eventPayload scIndex ecIndex) } }
      resolveRootClass .eventPayload
  finally
    modify fun ctx => { ctx with
      scopes := { ctx.scopes with
        eventSpecContext := none
        eventPayload := none }
      ec := none }

/-- The event-class loop of `resolve_stream_class_field_classes`. -/
def resolveEventClasses (scIndex : Nat) : List CtfEventClass → Nat → ResolveM Unit
  | [], _ => pure ()
  | ec :: ecs, ecIndex => do
      resolveEventClassFieldClasses scIndex ecIndex ec
      resolveEventClasses scIndex ecs (ecIndex + 1)

/-- `resolve_stream_class_field_classes` for stream class `scIndex`: its own
roots when it is not translated, then its event classes with its three scopes
set, whatever its flag. -/
def resolveStreamClassFieldClasses (scIndex : Nat) (sc : CtfStreamClass) : ResolveM Unit := do
  let ctx ← get
  if ctx.scopes.packetContext.isSome || ctx.scopes.eventHeader.isSome ||
      ctx.scopes.eventCommonContext.isSome then throw .aborted
  modify fun ctx => { ctx with sc := some sc }
  try
    if !sc.isTranslated then
      modify fun ctx => { ctx with
        scopes := { ctx.scopes with packetContext := some (.packetContext scIndex) } }
      resolveRootClass .packetContext
      modify fun ctx => { ctx with
        scopes := { ctx.scopes with eventHeader := some (.eventHeader scIndex) } }
      resolveRootClass .eventHeader
      modify fun ctx => { ctx with
        scopes := { ctx.scopes with eventCommonContext := some (.eventCommonContext scIndex) } }
      resolveRootClass .eventCommonContext
    modify fun ctx => { ctx with
      scopes := { ctx.scopes with
        packetContext := some (.packetContext scIndex)
        eventHeader := some (.eventHeader scIndex)
        eventCommonContext := some (.eventCommonContext scIndex) } }
    resolveEventClasses scIndex sc.eventClasses 0
  finally
    modify fun ctx => { ctx with
      scopes := { ctx.scopes with
        packetContext := none
        eventHeader := none
        eventCommonContext := none }
      sc := none }

/-- The stream-class loop of `ctf_trace_class_resolve_field_classes`. -/
def resolveStreamClasses : List CtfStreamClass → Nat → ResolveM Unit
  | [], _ => pure ()
  | sc :: scs, scIndex => do
      resolveStreamClassFieldClasses scIndex sc
      resolveStreamClasses scs (scIndex + 1)

/-- The context `ctf_trace_class_resolve_field_classes` starts from. -/
def ResolveContext.initial (tc : CtfTraceClass) : ResolveContext where
  tc := tc
  sc := none
  ec := none
  scopes := ⟨some .packetHeader, none, none, none, none, none⟩
  rootScope := .packetHeader
  fieldClassStack := []

/-- The body of `ctf_trace_class_resolve_field_classes`. -/
def resolveTraceClass (tc : CtfTraceClass) : ResolveM Unit := do
  if !tc.isTranslated then
    modify fun ctx => { ctx with scopes := { ctx.scopes with packetHeader := some .packetHeader } }
    resolveRootClass .packetHeader
  modify fun ctx => { ctx with scopes := { ctx.scopes with packetHeader := some .packetHeader } }
  resolveStreamClasses tc.streamClasses 0

/-- `ctf_trace_class_resolve_field_classes`: its outcome (`.ok` is a 0 return)
and the trace class as it left it, on both outcomes. -/
def ctfTraceClassResolveFieldClasses (tc : CtfTraceClass) :
    Except ResolveError Unit × CtfTraceClass :=
  match (resolveTraceClass tc).run (ResolveContext.initial tc) with
  | .ok _ ctx => (.ok (), ctx.tc)
  | .error e ctx => (.error e, ctx.tc)

/-- `{ len : uint32, data : sequence<uint8>[lengthRef] }`, its sequence not yet
resolved. -/
def lengthBeforeSequence (lengthRef : String) : CtfFieldClass :=
  .struct [("len", .int ⟨8, 32, false, .none⟩),
    ("data", .sequence (.int ⟨8, 8, false, .utf8⟩) false lengthRef ⟨.packetHeader, []⟩ none)]

/-- The same structure once `data`'s length is resolved to `len` in `scope`. -/
def lengthBeforeSequenceResolved (lengthRef : String) (scope : CtfScope) : CtfFieldClass :=
  .struct [("len", .int ⟨8, 32, false, .none⟩),
    ("data", .sequence (.int ⟨8, 8, false, .utf8⟩) false lengthRef ⟨scope, [0]⟩
      (some ⟨8, 32, false, .none⟩))]

/-- A valid sibling reference in an event specific context is left unresolved,
and the run returns 0. -/
theorem resolve_leaves_specific_context_unresolved :
    ctfTraceClassResolveFieldClasses
        ⟨none, [⟨none, none, none, [⟨some (lengthBeforeSequence "len"), none, false⟩], false⟩], false⟩ =
      (.ok (),
        ⟨none, [⟨none, none, none, [⟨some (lengthBeforeSequence "len"), none, false⟩], false⟩], false⟩) :=
  rfl

/-- A translated stream class whose common context holds an absolute `stream.`
reference resolves alone, and fails once it holds an untranslated event class
with no field class at all. -/
theorem resolve_fails_on_translated_stream_common_context :
    (ctfTraceClassResolveFieldClasses
        ⟨none, [⟨none, none, some (lengthBeforeSequence "stream.event.context.len"), [], true⟩],
          false⟩).1 = .ok () ∧
      (ctfTraceClassResolveFieldClasses
        ⟨none, [⟨none, none, some (lengthBeforeSequence "stream.event.context.len"),
          [⟨none, none, false⟩], true⟩], false⟩).1 = .error .failed :=
  ⟨rfl, rfl⟩

end Btrace.Ctf
