import Mathlib.Data.List.Basic

set_option autoImplicit false

/- The CTF metadata tree as the TSDL resolver and the text-array pass see it
(`ctf-meta.hpp`). Only the fields these passes read or write are kept: names
used for logging, byte orders, display bases, enumeration mappings, clock
classes and IR pointers are left out. A `GArray` of named field classes is a
list of `(orig_name, fc)` pairs. -/
namespace Btrace.Ctf

/-- `enum ctf_scope`, in declaration order, which is the order
`validate_target_field_path` compares root scopes in. -/
inductive CtfScope where
  | packetHeader
  | packetContext
  | eventHeader
  | eventCommonContext
  | eventSpecificContext
  | eventPayload
  deriving DecidableEq, Repr

/-- The integer value of a scope enumerator. -/
def CtfScope.toNat : CtfScope → Nat
  | .packetHeader => 0
  | .packetContext => 1
  | .eventHeader => 2
  | .eventCommonContext => 3
  | .eventSpecificContext => 4
  | .eventPayload => 5

/-- `struct ctf_field_path`: a root scope and the `int64_t` indices from it. -/
structure CtfFieldPath where
  root : CtfScope
  path : List Int
  deriving DecidableEq, Repr

inductive CtfEncoding where
  | none
  | utf8
  deriving DecidableEq, Repr

/-- `struct ctf_field_class_int` with the fields the passes read: the base
alignment, the bit-array size, the signedness and the encoding. -/
structure CtfFieldClassInt where
  alignment : Nat
  size : Nat
  isSigned : Bool
  encoding : CtfEncoding
  deriving DecidableEq, Repr

/-- `struct ctf_field_class_enum`, an integer class plus mappings; no modelled
function reads the mappings. -/
structure CtfFieldClassEnum where
  base : CtfFieldClassInt
  deriving DecidableEq, Repr

/-- A field class, one constructor per `enum ctf_field_class_type`. A sequence
and a variant carry their textual reference (`length_ref`, `tag_ref`) and the
two fields the resolver stores: the target field path and the weak pointer to
the target class, held here as the integer or enumeration it points to. -/
inductive CtfFieldClass where
  | int (intFc : CtfFieldClassInt)
  | enum (enumFc : CtfFieldClassEnum)
  | float
  | string
  | struct (members : List (String × CtfFieldClass))
  | array (elemFc : CtfFieldClass) (isText : Bool)
  | sequence (elemFc : CtfFieldClass) (isText : Bool) (lengthRef : String)
      (lengthPath : CtfFieldPath) (lengthFc : Option CtfFieldClassInt)
  | variant (tagRef : String) (tagPath : CtfFieldPath) (tagFc : Option CtfFieldClassEnum)
      (options : List (String × CtfFieldClass))
  deriving Repr

namespace CtfFieldClass

mutual
/-- Structural equality test, from which `DecidableEq` is derived (the deriving
handler does not cover nested inductive types). -/
def beq : CtfFieldClass → CtfFieldClass → Bool
  | .int a, .int b => a == b
  | .enum a, .enum b => a == b
  | .float, .float => true
  | .string, .string => true
  | .struct as, .struct bs => beqMembers as bs
  | .array a t, .array b u => a.beq b && t == u
  | .sequence a t r p f, .sequence b u s q g => a.beq b && t == u && r == s && p == q && f == g
  | .variant r p f as, .variant s q g bs => r == s && p == q && f == g && beqMembers as bs
  | _, _ => false

def beqMembers : List (String × CtfFieldClass) → List (String × CtfFieldClass) → Bool
  | [], [] => true
  | (n, a) :: as, (m, b) :: bs => n == m && a.beq b && beqMembers as bs
  | _, _ => false
end

/- The proofs below read `beq` by its defining equations through `show` rather
than `simp [beq]`: the equation lemmas of its overlapping match are costly to
generate. -/
mutual
theorem eq_of_beq : ∀ (a b : CtfFieldClass), a.beq b = true → a = b
  | .int _, b, h | .enum _, b, h | .float, b, h | .string, b, h => by
      cases b <;> first | rfl | exact congrArg _ (beq_iff_eq.1 h) | exact absurd h Bool.false_ne_true
  | .struct as, b, h => by
      cases b with
      | struct bs => exact congrArg _ (eq_of_beqMembers as bs h)
      | _ => exact absurd h Bool.false_ne_true
  | .array a t, b, h => by
      cases b with
      | array b u =>
        have h : (a.beq b && t == u) = true := h
        simp only [Bool.and_eq_true, beq_iff_eq] at h
        rw [eq_of_beq a b h.1, h.2]
      | _ => exact absurd h Bool.false_ne_true
  | .sequence a t r p f, b, h => by
      cases b with
      | sequence b u s q g =>
        have h : (a.beq b && t == u && r == s && p == q && f == g) = true := h
        simp only [Bool.and_eq_true, beq_iff_eq] at h
        rw [eq_of_beq a b h.1.1.1.1, h.1.1.1.2, h.1.1.2, h.1.2, h.2]
      | _ => exact absurd h Bool.false_ne_true
  | .variant r p f as, b, h => by
      cases b with
      | variant s q g bs =>
        have h : (r == s && p == q && f == g && beqMembers as bs) = true := h
        simp only [Bool.and_eq_true, beq_iff_eq] at h
        rw [h.1.1.1, h.1.1.2, h.1.2, eq_of_beqMembers as bs h.2]
      | _ => exact absurd h Bool.false_ne_true

theorem eq_of_beqMembers : ∀ (as bs : List (String × CtfFieldClass)), beqMembers as bs = true → as = bs
  | [], [], _ => rfl
  | (n, a) :: as, (m, b) :: bs, h => by
      have h : (n == m && a.beq b && beqMembers as bs) = true := h
      simp only [Bool.and_eq_true, beq_iff_eq] at h
      rw [h.1.1, eq_of_beq a b h.1.2, eq_of_beqMembers as bs h.2]
  | [], _ :: _, h | _ :: _, [], h => absurd h Bool.false_ne_true
end

mutual
theorem beq_refl : ∀ (a : CtfFieldClass), a.beq a = true
  | .int x => beq_self_eq_true x
  | .enum x => beq_self_eq_true x
  | .float | .string => rfl
  | .struct as => beqMembers_refl as
  | .array a t => show (a.beq a && t == t) = true by simp [beq_refl a]
  | .sequence a t r p f => show (a.beq a && t == t && r == r && p == p && f == f) = true by
      simp [beq_refl a]
  | .variant r p f as => show (r == r && p == p && f == f && beqMembers as as) = true by
      simp [beqMembers_refl as]

theorem beqMembers_refl : ∀ (as : List (String × CtfFieldClass)), beqMembers as as = true
  | [] => rfl
  | (n, a) :: as => show (n == n && a.beq a && beqMembers as as) = true by
      simp [beq_refl a, beqMembers_refl as]
end

instance : DecidableEq CtfFieldClass := fun a b =>
  if h : a.beq b then isTrue (eq_of_beq a b h) else isFalse (fun e => h (e ▸ beq_refl a))

mutual
/-- `g` applied at every node of a tree, children first. -/
def mapNodes (g : CtfFieldClass → CtfFieldClass) : CtfFieldClass → CtfFieldClass
  | .struct members => g (.struct (mapNodesMembers g members))
  | .variant tagRef tagPath tagFc options =>
      g (.variant tagRef tagPath tagFc (mapNodesMembers g options))
  | .array elemFc isText => g (.array (mapNodes g elemFc) isText)
  | .sequence elemFc isText lengthRef lengthPath lengthFc =>
      g (.sequence (mapNodes g elemFc) isText lengthRef lengthPath lengthFc)
  | fc => g fc

def mapNodesMembers (g : CtfFieldClass → CtfFieldClass) :
    List (String × CtfFieldClass) → List (String × CtfFieldClass)
  | [] => []
  | (name, fc) :: members => (name, mapNodes g fc) :: mapNodesMembers g members
end

/-- The class without what the resolver stores at it: the target path and
target class of a sequence or variant are reset. -/
def clearTargets : CtfFieldClass → CtfFieldClass
  | .sequence elemFc isText lengthRef _ _ => .sequence elemFc isText lengthRef ⟨.packetHeader, []⟩ none
  | .variant tagRef _ _ options => .variant tagRef ⟨.packetHeader, []⟩ none options
  | fc => fc

/-- The tree without any stored target: what the resolver reads of it. -/
def eraseTargets (fc : CtfFieldClass) : CtfFieldClass := fc.mapNodes clearTargets

/-- `ctf_field_class_as_int`: the integer part of an integer or enumeration class. -/
def asInt : CtfFieldClass → Option CtfFieldClassInt
  | .int intFc => some intFc
  | .enum enumFc => some enumFc.base
  | _ => none

/-- `ctf_field_class_as_enum`. -/
def asEnum : CtfFieldClass → Option CtfFieldClassEnum
  | .enum enumFc => some enumFc
  | _ => none

/-- The test `fc->type == CTF_FIELD_CLASS_TYPE_ARRAY || fc->type == CTF_FIELD_CLASS_TYPE_SEQUENCE`. -/
def isArrayOrSequence : CtfFieldClass → Bool
  | .array _ _ | .sequence _ _ _ _ _ => true
  | .int _ | .enum _ | .float | .string | .struct _ | .variant _ _ _ _ => false

/-- The member at a signed index: a negative index, cast to `uint64_t`, is past
the end and fails the accessor's assertion. -/
def borrowMember (index : Int) (members : List (String × CtfFieldClass)) :
    Option CtfFieldClass :=
  if 0 ≤ index then (members[index.toNat]?).map Prod.snd else none

/-- Modelled from the spec: `ctf_field_class_compound_borrow_field_class_by_index`
of `ctf-meta.hpp`, which is not in the excerpt. The member or option at
`index` of a structure or variant, the element class of an array or sequence
(where the index is the sentinel -1), and no child for other classes or for an
index past the end. -/
def compoundBorrowFieldClassByIndex : CtfFieldClass → Int → Option CtfFieldClass
  | .struct members, index => borrowMember index members
  | .variant _ _ _ options, index => borrowMember index options
  | .array elemFc _, _ => some elemFc
  | .sequence elemFc _ _ _ _, _ => some elemFc
  | _, _ => none

/-- The class reached by following `path` one index at a time. -/
def borrowFieldClassByPath : CtfFieldClass → List Int → Option CtfFieldClass
  | fc, [] => some fc
  | fc, index :: path => (fc.compoundBorrowFieldClassByIndex index).bind (borrowFieldClassByPath · path)

/-- `members` with `g` applied to the class at `index`, if there is one. -/
def modifyMember (g : CtfFieldClass → CtfFieldClass) (index : Int)
    (members : List (String × CtfFieldClass)) : List (String × CtfFieldClass) :=
  if 0 ≤ index then members.modify (fun m => (m.1, g m.2)) index.toNat else members

/-- An in-place update through a pointer: `fc` with `f` applied to the class
that `borrowFieldClassByPath fc path` reaches. -/
def modifyAt (f : CtfFieldClass → CtfFieldClass) : List Int → CtfFieldClass → CtfFieldClass
  | [], fc => f fc
  | index :: path, .struct members => .struct (modifyMember (modifyAt f path) index members)
  | index :: path, .variant tagRef tagPath tagFc options =>
      .variant tagRef tagPath tagFc (modifyMember (modifyAt f path) index options)
  | _ :: path, .array elemFc isText => .array (modifyAt f path elemFc) isText
  | _ :: path, .sequence elemFc isText lengthRef lengthPath lengthFc =>
      .sequence (modifyAt f path elemFc) isText lengthRef lengthPath lengthFc
  | _ :: _, fc => fc

end CtfFieldClass

/-- `struct ctf_event_class`: its two root classes and its translated flag. -/
structure CtfEventClass where
  specContextFc : Option CtfFieldClass
  payloadFc : Option CtfFieldClass
  isTranslated : Bool
  deriving DecidableEq, Repr

/-- `struct ctf_stream_class`: its three root classes, its event classes in
order, and its translated flag. -/
structure CtfStreamClass where
  packetContextFc : Option CtfFieldClass
  eventHeaderFc : Option CtfFieldClass
  eventCommonContextFc : Option CtfFieldClass
  eventClasses : List CtfEventClass
  isTranslated : Bool
  deriving DecidableEq, Repr

/-- `struct ctf_trace_class`: the packet header class, the stream classes in
order, and the translated flag. -/
structure CtfTraceClass where
  packetHeaderFc : Option CtfFieldClass
  streamClasses : List CtfStreamClass
  isTranslated : Bool
  deriving DecidableEq, Repr

/-- A root class of a trace class, as the resolver's scope pointers reach it:
the packet header, a root of stream class `sc`, or a root of event class `ec`
of stream class `sc`. -/
inductive RootClassRef where
  | packetHeader
  | packetContext (sc : Nat)
  | eventHeader (sc : Nat)
  | eventCommonContext (sc : Nat)
  | eventSpecContext (sc ec : Nat)
  | eventPayload (sc ec : Nat)
  deriving DecidableEq, Repr

/-- The scope a root class is the root of. -/
def RootClassRef.scope : RootClassRef → CtfScope
  | .packetHeader => .packetHeader
  | .packetContext _ => .packetContext
  | .eventHeader _ => .eventHeader
  | .eventCommonContext _ => .eventCommonContext
  | .eventSpecContext _ _ => .eventSpecificContext
  | .eventPayload _ _ => .eventPayload

/-- A pointer to a field class: the root class it lies under and its position
below that root. -/
structure FieldClassRef where
  root : RootClassRef
  position : List Int
  deriving DecidableEq, Repr

def FieldClassRef.child (fcRef : FieldClassRef) (index : Int) : FieldClassRef :=
  ⟨fcRef.root, fcRef.position ++ [index]⟩

/-- `f` on both root classes of an event class. -/
def CtfEventClass.mapRoots (f : CtfFieldClass → CtfFieldClass) (ec : CtfEventClass) :
    CtfEventClass :=
  { ec with specContextFc := ec.specContextFc.map f, payloadFc := ec.payloadFc.map f }

/-- `f` on the root classes of a stream class and of its event classes. -/
def CtfStreamClass.mapRoots (f : CtfFieldClass → CtfFieldClass) (sc : CtfStreamClass) :
    CtfStreamClass :=
  { sc with
    packetContextFc := sc.packetContextFc.map f
    eventHeaderFc := sc.eventHeaderFc.map f
    eventCommonContextFc := sc.eventCommonContextFc.map f
    eventClasses := sc.eventClasses.map (·.mapRoots f) }

namespace CtfTraceClass

/-- `f` on every root class of the trace class. -/
def mapRoots (f : CtfFieldClass → CtfFieldClass) (tc : CtfTraceClass) : CtfTraceClass :=
  { tc with
    packetHeaderFc := tc.packetHeaderFc.map f
    streamClasses := tc.streamClasses.map (·.mapRoots f) }

/-- The trace class without any stored target. -/
def eraseTargets (tc : CtfTraceClass) : CtfTraceClass := tc.mapRoots CtfFieldClass.eraseTargets

def eventClass (tc : CtfTraceClass) (sc ec : Nat) : Option CtfEventClass :=
  (tc.streamClasses[sc]?).bind (·.eventClasses[ec]?)

/-- The class a root pointer points to, `none` where the layer has no such root. -/
def rootClass (tc : CtfTraceClass) : RootClassRef → Option CtfFieldClass
  | .packetHeader => tc.packetHeaderFc
  | .packetContext sc => (tc.streamClasses[sc]?).bind (·.packetContextFc)
  | .eventHeader sc => (tc.streamClasses[sc]?).bind (·.eventHeaderFc)
  | .eventCommonContext sc => (tc.streamClasses[sc]?).bind (·.eventCommonContextFc)
  | .eventSpecContext sc ec => (tc.eventClass sc ec).bind (·.specContextFc)
  | .eventPayload sc ec => (tc.eventClass sc ec).bind (·.payloadFc)

def fieldClass (tc : CtfTraceClass) (fcRef : FieldClassRef) : Option CtfFieldClass :=
  (tc.rootClass fcRef.root).bind (·.borrowFieldClassByPath fcRef.position)

def modifyStreamClass (tc : CtfTraceClass) (sc : Nat) (g : CtfStreamClass → CtfStreamClass) :
    CtfTraceClass :=
  { tc with streamClasses := tc.streamClasses.modify g sc }

def modifyEventClass (tc : CtfTraceClass) (sc ec : Nat) (g : CtfEventClass → CtfEventClass) :
    CtfTraceClass :=
  tc.modifyStreamClass sc fun s => { s with eventClasses := s.eventClasses.modify g ec }

/-- An in-place update of the root class a pointer points to. -/
def modifyRootClass (tc : CtfTraceClass) (f : CtfFieldClass → CtfFieldClass) :
    RootClassRef → CtfTraceClass
  | .packetHeader => { tc with packetHeaderFc := tc.packetHeaderFc.map f }
  | .packetContext sc =>
      tc.modifyStreamClass sc fun s => { s with packetContextFc := s.packetContextFc.map f }
  | .eventHeader sc =>
      tc.modifyStreamClass sc fun s => { s with eventHeaderFc := s.eventHeaderFc.map f }
  | .eventCommonContext sc =>
      tc.modifyStreamClass sc fun s =>
        { s with eventCommonContextFc := s.eventCommonContextFc.map f }
  | .eventSpecContext sc ec =>
      tc.modifyEventClass sc ec fun e => { e with specContextFc := e.specContextFc.map f }
  | .eventPayload sc ec =>
      tc.modifyEventClass sc ec fun e => { e with payloadFc := e.payloadFc.map f }

/-- A store through a field-class pointer. -/
def modifyFieldClass (tc : CtfTraceClass) (fcRef : FieldClassRef)
    (f : CtfFieldClass → CtfFieldClass) : CtfTraceClass :=
  tc.modifyRootClass (CtfFieldClass.modifyAt f fcRef.position) fcRef.root

end CtfTraceClass

end Btrace.Ctf
