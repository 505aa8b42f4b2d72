import Btrace.Ctf.Resolve.Run

set_option autoImplicit false

/- What the resolver never writes. The frame rules are stated once for any
view of the trace class a computation keeps on either outcome (`Keeps`): every
operation of `ctf-meta-resolve.cpp` keeps what erasing the length and tag
targets leaves of the trace class, and so does the whole pass, including when it
fails halfway with some targets already stored. A traversal also keeps every
root class other than its own, which `Writes` lifts to the driver. -/
namespace Btrace.Ctf

/-- The context a computation of the resolver ends in, on either outcome. -/
def finalContext {α : Type} : EStateM.Result ResolveError ResolveContext α → ResolveContext
  | .ok _ s => s
  | .error _ s => s

/-- A computation of the resolver that keeps, on either outcome, what `view`
reads of the trace class. -/
def Keeps {β α : Type} (view : CtfTraceClass → β) (x : ResolveM α) : Prop :=
  ∀ s, view (finalContext (x.run s)).tc = view s.tc

/-- A computation of the resolver that writes, on either outcome, nothing of the
trace class but the targets of sequences and variants. -/
def KeepsShape {α : Type} (x : ResolveM α) : Prop :=
  Keeps CtfTraceClass.eraseTargets x

section KeepsRules

variable {β α γ : Type} {view : CtfTraceClass → β}

theorem keeps_pure (a : α) : Keeps view (pure a : ResolveM α) := fun _ => rfl

theorem keeps_throw (e : ResolveError) : Keeps view (throw e : ResolveM α) := fun _ => rfl

theorem keeps_throw_bind (e : ResolveError) (f : α → ResolveM γ) :
    Keeps view ((throw e : ResolveM α) >>= f) := fun _ => rfl

theorem keeps_get : Keeps view (get : ResolveM ResolveContext) := fun _ => rfl

theorem keeps_modify {g : ResolveContext → ResolveContext} (same : ∀ s, (g s).tc = s.tc) :
    Keeps view (modify g : ResolveM PUnit) := fun s => congrArg view (same s)

theorem keeps_bind {x : ResolveM α} {f : α → ResolveM γ} (first : Keeps view x) (rest : ∀ a, Keeps view (f a)) :
    Keeps view (x >>= f) := by
  intro s
  have before := first s
  cases ran : x.run s with
  | ok a s₁ =>
      rw [ran] at before
      rw [run_bind_of_ok ran]
      exact (rest a s₁).trans before
  | error e s₁ =>
      rw [ran] at before
      rw [run_bind_of_error ran]
      exact before

theorem keeps_ite {c : Prop} [Decidable c] {x y : ResolveM α} (yes : Keeps view x) (no : Keeps view y) :
    Keeps view (if c then x else y) := by
  split
  · exact yes
  · exact no

theorem keeps_tryFinally {x : ResolveM Unit} {g : ResolveContext → ResolveContext} (body : Keeps view x)
    (same : ∀ s, (g s).tc = s.tc) : Keeps view (tryFinally x (modify g)) := by
  intro s
  have before := body s
  cases ran : x.run s with
  | ok _ s₁ =>
      rw [ran] at before
      rw [tryFinally_run_of_ok ran]
      exact (congrArg view (same s₁)).trans before
  | error e s₁ =>
      rw [ran] at before
      rw [tryFinally_run_of_error ran]
      exact (congrArg view (same s₁)).trans before

end KeepsRules

/-! ## The operations of the resolver -/

/-- What a store of a target through `fcRef` keeps of the trace class. -/
def StoreKeeps {β : Type} (view : CtfTraceClass → β) (fcRef : FieldClassRef) : Prop :=
  ∀ (tc : CtfTraceClass) (target : CtfFieldPath) (targetFc : CtfFieldClass),
    view (tc.modifyFieldClass fcRef (setTargetFieldClass target targetFc)) = view tc

section Operations

variable {β : Type} {view : CtfTraceClass → β}

theorem keeps_fieldClassStackPush (fc : CtfFieldClass) : Keeps view (fieldClassStackPush fc) :=
  keeps_modify fun _ => rfl

theorem keeps_fieldClassStackPop : Keeps view fieldClassStackPop :=
  keeps_modify fun _ => rfl

theorem keeps_fieldClassStackSetTopIndex (index : Int) : Keeps view (fieldClassStackSetTopIndex index) := by
  refine keeps_bind (keeps_bind keeps_get fun ctx => ?_) fun _ => keeps_modify fun _ => rfl
  split
  · exact keeps_pure _
  · exact keeps_throw _

/-- The store of a found target keeps every view that storing a target at
`fcRef` keeps. -/
theorem keeps_resolveSequenceOrVariantFieldClass {fc : CtfFieldClass} {fcRef : FieldClassRef}
    (store : StoreKeeps view fcRef) :
    Keeps view (resolveSequenceOrVariantFieldClass fc fcRef) := by
  refine keeps_bind keeps_get fun ctx => ?_
  split
  · exact fun s => store s.tc _ _
  · exact keeps_throw _

mutual
/-- A traversal below the root `rootRef` keeps every view that a store of a
target below that root keeps. -/
theorem keeps_resolveFieldClass {rootRef : RootClassRef}
    (store : ∀ fcRef : FieldClassRef, fcRef.root = rootRef → StoreKeeps view fcRef) :
    ∀ (fc : CtfFieldClass) (fcRef : FieldClassRef), fcRef.root = rootRef → Keeps view (resolveFieldClass fc fcRef)
  | .int _, _, _ | .enum _, _, _ | .float, _, _ | .string, _, _ => keeps_pure ()
  | .struct members, fcRef, below =>
      keeps_bind (keeps_fieldClassStackPush _) fun _ =>
        keeps_bind (keeps_resolveFieldClassMembers store members fcRef below 0) fun _ => keeps_fieldClassStackPop
  | .variant _ _ _ options, fcRef, below =>
      keeps_bind (keeps_resolveSequenceOrVariantFieldClass (store fcRef below)) fun _ =>
        keeps_bind (keeps_fieldClassStackPush _) fun _ =>
          keeps_bind (keeps_resolveFieldClassMembers store options fcRef below 0) fun _ => keeps_fieldClassStackPop
  | .array elemFc _, fcRef, below =>
      keeps_bind (keeps_fieldClassStackPush _) fun _ =>
        keeps_bind (keeps_fieldClassStackSetTopIndex _) fun _ =>
          keeps_bind (keeps_resolveFieldClass store elemFc (fcRef.child (-1)) below) fun _ => keeps_fieldClassStackPop
  | .sequence elemFc _ _ _ _, fcRef, below =>
      keeps_bind (keeps_resolveSequenceOrVariantFieldClass (store fcRef below)) fun _ =>
        keeps_bind (keeps_fieldClassStackPush _) fun _ =>
          keeps_bind (keeps_fieldClassStackSetTopIndex _) fun _ =>
            keeps_bind (keeps_resolveFieldClass store elemFc (fcRef.child (-1)) below) fun _ =>
              keeps_fieldClassStackPop

theorem keeps_resolveFieldClassMembers {rootRef : RootClassRef}
    (store : ∀ fcRef : FieldClassRef, fcRef.root = rootRef → StoreKeeps view fcRef) :
    ∀ (members : List (String × CtfFieldClass)) (fcRef : FieldClassRef), fcRef.root = rootRef → ∀ i : Nat,
      Keeps view (resolveFieldClassMembers members fcRef i)
  | [], _, _, _ => keeps_pure ()
  | (_, childFc) :: members, fcRef, below, i =>
      keeps_bind (keeps_fieldClassStackSetTopIndex _) fun _ =>
        keeps_bind (keeps_resolveFieldClass store childFc (fcRef.child i) below) fun _ =>
          keeps_resolveFieldClassMembers store members fcRef below (i + 1)
end

end Operations

/-- A store writes the target of one sequence or variant, which erasing forgets. -/
theorem storeKeeps_eraseTargets (fcRef : FieldClassRef) : StoreKeeps CtfTraceClass.eraseTargets fcRef := by
  intro tc target targetFc
  apply CtfTraceClass.eraseTargets_modifyRootClass
  intro root _
  exact CtfFieldClass.eraseTargets_modifyAt _ fun x _ => eraseTargets_setTargetFieldClass _ _ x

theorem keepsShape_resolveFieldClass (fc : CtfFieldClass) (fcRef : FieldClassRef) :
    KeepsShape (resolveFieldClass fc fcRef) :=
  keeps_resolveFieldClass (fun fcRef _ => storeKeeps_eraseTargets fcRef) fc fcRef rfl

/-! ## The drivers -/

theorem keepsShape_resolveRootClass (rootScope : CtfScope) : KeepsShape (resolveRootClass rootScope) := by
  unfold resolveRootClass
  refine keeps_bind keeps_get fun _ => ?_
  dsimp only
  refine keeps_ite (keeps_throw_bind _ _) (keeps_bind (keeps_pure _) fun _ =>
    keeps_bind (keeps_modify fun _ => rfl) fun _ => keeps_bind keeps_get fun ctx => ?_)
  split
  · exact keeps_pure _
  · split
    · exact keeps_pure _
    · exact keepsShape_resolveFieldClass _ _

theorem keepsShape_resolveEventClassFieldClasses (scIndex ecIndex : Nat) (ec : CtfEventClass) :
    KeepsShape (resolveEventClassFieldClasses scIndex ecIndex ec) := by
  unfold resolveEventClassFieldClasses
  refine keeps_bind keeps_get fun _ => ?_
  dsimp only
  refine keeps_ite (keeps_throw_bind _ _) (keeps_bind (keeps_pure _) fun _ =>
    keeps_tryFinally (keeps_ite ?_ (keeps_pure _)) fun _ => rfl)
  exact keeps_bind (keeps_modify fun _ => rfl) fun _ =>
    keeps_bind (keepsShape_resolveRootClass _) fun _ =>
      keeps_bind (keeps_modify fun _ => rfl) fun _ => keepsShape_resolveRootClass _

theorem keepsShape_resolveEventClasses (scIndex : Nat) :
    ∀ (ecs : List CtfEventClass) (ecIndex : Nat), KeepsShape (resolveEventClasses scIndex ecs ecIndex)
  | [], _ => keeps_pure ()
  | ec :: ecs, ecIndex =>
      keeps_bind (keepsShape_resolveEventClassFieldClasses _ _ ec) fun _ =>
        keepsShape_resolveEventClasses scIndex ecs (ecIndex + 1)

theorem keepsShape_resolveStreamClassFieldClasses (scIndex : Nat) (sc : CtfStreamClass) :
    KeepsShape (resolveStreamClassFieldClasses scIndex sc) := by
  unfold resolveStreamClassFieldClasses
  refine keeps_bind keeps_get fun _ => ?_
  dsimp only
  refine keeps_ite (keeps_throw_bind _ _) (keeps_bind (keeps_pure _) fun _ =>
    keeps_bind (keeps_modify fun _ => rfl) fun _ => keeps_tryFinally (keeps_ite ?_ ?_) fun _ => rfl)
  · exact keeps_bind (keeps_modify fun _ => rfl) fun _ =>
      keeps_bind (keepsShape_resolveRootClass _) fun _ =>
        keeps_bind (keeps_modify fun _ => rfl) fun _ =>
          keeps_bind (keepsShape_resolveRootClass _) fun _ =>
            keeps_bind (keeps_modify fun _ => rfl) fun _ =>
              keeps_bind (keepsShape_resolveRootClass _) fun _ =>
                keeps_bind (keeps_modify fun _ => rfl) fun _ => keepsShape_resolveEventClasses _ _ _
  · exact keeps_bind (keeps_pure _) fun _ =>
      keeps_bind (keeps_modify fun _ => rfl) fun _ => keepsShape_resolveEventClasses _ _ _

theorem keepsShape_resolveStreamClasses :
    ∀ (scs : List CtfStreamClass) (scIndex : Nat), KeepsShape (resolveStreamClasses scs scIndex)
  | [], _ => keeps_pure ()
  | sc :: scs, scIndex =>
      keeps_bind (keepsShape_resolveStreamClassFieldClasses _ sc) fun _ =>
        keepsShape_resolveStreamClasses scs (scIndex + 1)

theorem keepsShape_resolveTraceClass (tc : CtfTraceClass) : KeepsShape (resolveTraceClass tc) := by
  unfold resolveTraceClass
  dsimp only
  refine keeps_ite ?_ (keeps_bind (keeps_pure _) fun _ =>
    keeps_bind (keeps_modify fun _ => rfl) fun _ => keepsShape_resolveStreamClasses _ _)
  exact keeps_bind (keeps_modify fun _ => rfl) fun _ =>
    keeps_bind (keepsShape_resolveRootClass _) fun _ =>
      keeps_bind (keeps_modify fun _ => rfl) fun _ => keepsShape_resolveStreamClasses _ _

/-- On either outcome, `ctf_trace_class_resolve_field_classes` writes nothing of
the trace class but the length path and class of sequences and the tag path and
class of variants: the shape of every field-class tree, the member and option
names, the reference strings, the text flags, the stream and event classes and
the translated flags are those it got, also when it fails after storing some
targets. -/
theorem ctfTraceClassResolveFieldClasses_keeps_shape (tc : CtfTraceClass) :
    (ctfTraceClassResolveFieldClasses tc).2.eraseTargets = tc.eraseTargets := by
  have kept := keepsShape_resolveTraceClass tc (ResolveContext.initial tc)
  unfold ctfTraceClassResolveFieldClasses
  cases ran : (resolveTraceClass tc).run (ResolveContext.initial tc) <;> rw [ran] at kept <;> exact kept

end Btrace.Ctf
