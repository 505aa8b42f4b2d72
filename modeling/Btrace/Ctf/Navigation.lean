import Btrace.Ctf.FieldClass

set_option autoImplicit false

/- Reading and updating a trace class through pointers: what a walk down a path
reaches, how an in-place update at a position changes what later walks read, and
that erasing the stored targets changes neither the shapes nor the names the
resolver reads. -/
namespace Btrace.Ctf

theorem modify_congr_of_getElem? {α : Type} {f g : α → α} {n : Nat} {l : List α}
    (agree : ∀ a, l[n]? = some a → f a = g a) : l.modify f n = l.modify g n := by
  apply List.ext_getElem?
  intro m
  simp only [List.getElem?_modify]
  by_cases same : n = m
  · subst same
    cases h : l[n]? with
    | none => rfl
    | some a => simp [agree a h]
  · simp [same]

theorem map_modify_of_getElem? {α β : Type} {f : α → α} {h : α → β} {n : Nat}
    {l : List α} (keeps : ∀ a, l[n]? = some a → h (f a) = h a) :
    (l.modify f n).map h = l.map h := by
  apply List.ext_getElem?
  intro m
  simp only [List.getElem?_map, List.getElem?_modify]
  by_cases same : n = m
  · subst same
    cases e : l[n]? with
    | none => rfl
    | some a => simp [keeps a e]
  · simp [same]

theorem modify_append_length {α : Type} (f : α → α) (a : α) (rest : List α) :
    ∀ done : List α, (done ++ a :: rest).modify f done.length = done ++ f a :: rest
  | [] => rfl
  | b :: done => by simp [modify_append_length f a rest done]

namespace CtfFieldClass

theorem mapNodesMembers_eq_map (g : CtfFieldClass → CtfFieldClass) :
    ∀ members : List (String × CtfFieldClass),
      mapNodesMembers g members = members.map fun m => (m.1, mapNodes g m.2)
  | [] => rfl
  | (_, _) :: members => by simp [mapNodesMembers, mapNodesMembers_eq_map g members]

@[simp] theorem eraseTargets_struct (members : List (String × CtfFieldClass)) :
    eraseTargets (.struct members) = .struct (members.map fun m => (m.1, eraseTargets m.2)) := by
  simp [eraseTargets, mapNodes, clearTargets, mapNodesMembers_eq_map]

@[simp] theorem eraseTargets_variant (tagRef : String) (tagPath : CtfFieldPath)
    (tagFc : Option CtfFieldClassEnum) (options : List (String × CtfFieldClass)) :
    eraseTargets (.variant tagRef tagPath tagFc options) =
      .variant tagRef ⟨.packetHeader, []⟩ none (options.map fun m => (m.1, eraseTargets m.2)) := by
  simp [eraseTargets, mapNodes, clearTargets, mapNodesMembers_eq_map]

@[simp] theorem eraseTargets_array (elemFc : CtfFieldClass) (isText : Bool) :
    eraseTargets (.array elemFc isText) = .array (eraseTargets elemFc) isText := rfl

@[simp] theorem eraseTargets_sequence (elemFc : CtfFieldClass) (isText : Bool) (lengthRef : String)
    (lengthPath : CtfFieldPath) (lengthFc : Option CtfFieldClassInt) :
    eraseTargets (.sequence elemFc isText lengthRef lengthPath lengthFc) =
      .sequence (eraseTargets elemFc) isText lengthRef ⟨.packetHeader, []⟩ none := rfl

@[simp] theorem eraseTargets_int (intFc : CtfFieldClassInt) : eraseTargets (.int intFc) = .int intFc :=
  rfl

@[simp] theorem eraseTargets_enum (enumFc : CtfFieldClassEnum) :
    eraseTargets (.enum enumFc) = .enum enumFc := rfl

@[simp] theorem eraseTargets_float : eraseTargets .float = .float := rfl

@[simp] theorem eraseTargets_string : eraseTargets .string = .string := rfl

mutual
theorem eraseTargets_eraseTargets : ∀ fc : CtfFieldClass, fc.eraseTargets.eraseTargets = fc.eraseTargets
  | .int _ | .enum _ | .float | .string => rfl
  | .struct members => by simp [eraseTargetsMembers_eraseTargets members]
  | .variant _ _ _ options => by simp [eraseTargetsMembers_eraseTargets options]
  | .array elemFc _ | .sequence elemFc _ _ _ _ => by simp [eraseTargets_eraseTargets elemFc]

theorem eraseTargetsMembers_eraseTargets : ∀ members : List (String × CtfFieldClass),
    (members.map fun m => (m.1, eraseTargets m.2)).map (fun m => (m.1, eraseTargets m.2)) =
      members.map fun m => (m.1, eraseTargets m.2)
  | [] => rfl
  | (_, fc) :: members => by
      simp only [List.map_cons, eraseTargets_eraseTargets fc]
      rw [eraseTargetsMembers_eraseTargets members]
end

/-- An erased class is an integer or an enumeration exactly when the class is
that class: erasing only touches sequences and variants. -/
theorem eq_of_eraseTargets_eq_int {fc : CtfFieldClass} {intFc : CtfFieldClassInt}
    (erased : fc.eraseTargets = .int intFc) : fc = .int intFc := by
  cases fc <;> simp_all

theorem eq_of_eraseTargets_eq_enum {fc : CtfFieldClass} {enumFc : CtfFieldClassEnum}
    (erased : fc.eraseTargets = .enum enumFc) : fc = .enum enumFc := by
  cases fc <;> simp_all

theorem borrowMember_map (h : CtfFieldClass → CtfFieldClass) (index : Int)
    (members : List (String × CtfFieldClass)) :
    borrowMember index (members.map fun m => (m.1, h m.2)) = (borrowMember index members).map h := by
  unfold borrowMember
  split <;> simp [Function.comp_def]

theorem compoundBorrowFieldClassByIndex_eraseTargets (fc : CtfFieldClass) (index : Int) :
    fc.eraseTargets.compoundBorrowFieldClassByIndex index =
      (fc.compoundBorrowFieldClassByIndex index).map eraseTargets := by
  cases fc <;> simp [compoundBorrowFieldClassByIndex, borrowMember_map]

theorem borrowFieldClassByPath_eraseTargets (path : List Int) :
    ∀ fc : CtfFieldClass, fc.eraseTargets.borrowFieldClassByPath path =
      (fc.borrowFieldClassByPath path).map eraseTargets := by
  induction path with
  | nil => intro fc; rfl
  | cons index path ih =>
      intro fc
      cases child : fc.compoundBorrowFieldClassByIndex index <;>
        simp [borrowFieldClassByPath, compoundBorrowFieldClassByIndex_eraseTargets, child, ih]

@[simp] theorem borrowFieldClassByPath_nil (fc : CtfFieldClass) : fc.borrowFieldClassByPath [] = some fc :=
  rfl

theorem borrowFieldClassByPath_append (path rest : List Int) :
    ∀ fc : CtfFieldClass, fc.borrowFieldClassByPath (path ++ rest) =
      (fc.borrowFieldClassByPath path).bind (·.borrowFieldClassByPath rest) := by
  induction path with
  | nil => intro fc; rfl
  | cons index path ih =>
      intro fc
      simp [borrowFieldClassByPath, ih, Option.bind_assoc]

theorem borrowFieldClassByPath_concat (path : List Int) (index : Int) (fc : CtfFieldClass) :
    fc.borrowFieldClassByPath (path ++ [index]) =
      (fc.borrowFieldClassByPath path).bind (·.compoundBorrowFieldClassByIndex index) := by
  rw [borrowFieldClassByPath_append]
  cases fc.borrowFieldClassByPath path with
  | none => rfl
  | some child => cases child.compoundBorrowFieldClassByIndex index <;> simp [borrowFieldClassByPath, *]

@[simp] theorem borrowMember_natCast (index : Nat) (members : List (String × CtfFieldClass)) :
    borrowMember (index : Int) members = (members[index]?).map Prod.snd := by
  simp only [borrowMember, Int.toNat_ofNat, if_pos (Int.ofNat_nonneg index)]

theorem borrowMember_eq_some {index : Int} {members : List (String × CtfFieldClass)} {fc : CtfFieldClass} :
    borrowMember index members = some fc ↔ ∃ (k : Nat) (name : String), index = k ∧ members[k]? = some (name, fc) := by
  constructor
  · intro found
    unfold borrowMember at found
    split_ifs at found with nonNegative
    obtain ⟨⟨name, child⟩, member, rfl⟩ := Option.map_eq_some'.mp found
    exact ⟨index.toNat, name, (Int.toNat_of_nonneg nonNegative).symm, member⟩
  · rintro ⟨k, name, rfl, member⟩
    simp [member]

theorem borrowMember_append_length (done : List (String × CtfFieldClass)) (name : String)
    (fc : CtfFieldClass) (rest : List (String × CtfFieldClass)) :
    borrowMember (done.length : Int) (done ++ (name, fc) :: rest) = some fc := by
  have nonNegative : (0 : Int) ≤ done.length := by omega
  simp [borrowMember, nonNegative, List.getElem?_append_right, List.getElem_append_right]

theorem borrowMember_modifyMember_self (g : CtfFieldClass → CtfFieldClass) (index : Int)
    (members : List (String × CtfFieldClass)) :
    borrowMember index (modifyMember g index members) = (borrowMember index members).map g := by
  unfold borrowMember modifyMember
  split <;> simp [Function.comp_def]

theorem modifyMember_comp (f g : CtfFieldClass → CtfFieldClass) (index : Int)
    (members : List (String × CtfFieldClass)) :
    modifyMember g index (modifyMember f index members) = modifyMember (g ∘ f) index members := by
  unfold modifyMember
  split
  · rw [List.modify_modify_eq]; rfl
  · rfl

theorem modifyMember_append_length (g : CtfFieldClass → CtfFieldClass) (done : List (String × CtfFieldClass))
    (name : String) (fc : CtfFieldClass) (rest : List (String × CtfFieldClass)) :
    modifyMember g (done.length : Int) (done ++ (name, fc) :: rest) = done ++ (name, g fc) :: rest := by
  have nonNegative : (0 : Int) ≤ done.length := by omega
  simp [modifyMember, nonNegative, modify_append_length]

theorem modifyMember_congr {f g : CtfFieldClass → CtfFieldClass} {index : Int}
    {members : List (String × CtfFieldClass)}
    (agree : ∀ x, borrowMember index members = some x → f x = g x) :
    modifyMember f index members = modifyMember g index members := by
  unfold modifyMember
  split
  · apply modify_congr_of_getElem?
    intro m found
    simp [agree m.2 (by simp [borrowMember, *])]
  · rfl

theorem mapMembers_modifyMember {h f : CtfFieldClass → CtfFieldClass} {index : Int}
    {members : List (String × CtfFieldClass)}
    (keeps : ∀ x, borrowMember index members = some x → h (f x) = h x) :
    (modifyMember f index members).map (fun m => (m.1, h m.2)) = members.map fun m => (m.1, h m.2) := by
  unfold modifyMember
  split
  · apply map_modify_of_getElem?
    intro m found
    simp [keeps m.2 (by simp [borrowMember, *])]
  · rfl

theorem modifyAt_append (f : CtfFieldClass → CtfFieldClass) (path rest : List Int) :
    ∀ fc : CtfFieldClass, modifyAt f (path ++ rest) fc = modifyAt (modifyAt f rest) path fc := by
  induction path with
  | nil => intro fc; rfl
  | cons index path ih =>
      intro fc
      have step : modifyAt f (path ++ rest) = modifyAt (modifyAt f rest) path := funext ih
      cases fc <;> simp only [List.cons_append, modifyAt, List.append_eq, step]

theorem borrowFieldClassByPath_modifyAt_self (f : CtfFieldClass → CtfFieldClass) (path : List Int) :
    ∀ fc : CtfFieldClass,
      (modifyAt f path fc).borrowFieldClassByPath path = (fc.borrowFieldClassByPath path).map f := by
  induction path with
  | nil => intro fc; rfl
  | cons index path ih =>
      intro fc
      cases fc <;>
        simp [modifyAt, borrowFieldClassByPath, compoundBorrowFieldClassByIndex,
          borrowMember_modifyMember_self, Option.bind_map, ih, Option.map_bind, Function.comp_def]

@[simp] theorem modifyAt_id (path : List Int) : ∀ fc : CtfFieldClass, modifyAt id path fc = fc := by
  induction path with
  | nil => intro fc; rfl
  | cons index path ih =>
      have step : modifyAt id path = id := funext ih
      have keep : (fun m : String × CtfFieldClass => m) = id := rfl
      intro fc
      cases fc <;> simp [modifyAt, step, modifyMember, keep]

theorem modifyAt_comp (f g : CtfFieldClass → CtfFieldClass) (path : List Int) :
    ∀ fc : CtfFieldClass, modifyAt g path (modifyAt f path fc) = modifyAt (g ∘ f) path fc := by
  induction path with
  | nil => intro fc; rfl
  | cons index path ih =>
      intro fc
      cases fc <;> simp only [modifyAt, modifyMember_comp, Function.comp_def, ih]

theorem modifyAt_congr {f g : CtfFieldClass → CtfFieldClass} (path : List Int) :
    ∀ {fc : CtfFieldClass}, (∀ x, fc.borrowFieldClassByPath path = some x → f x = g x) →
      modifyAt f path fc = modifyAt g path fc := by
  induction path with
  | nil => intro fc agree; exact agree fc rfl
  | cons index path ih =>
      intro fc agree
      cases fc <;> simp only [modifyAt]
      all_goals first
        | rfl
        | (congr 1; apply modifyMember_congr; intro x found; apply ih; intro y reached;
            exact agree y (by simp [borrowFieldClassByPath, compoundBorrowFieldClassByIndex, found, reached]))
        | (congr 1; apply ih; intro y reached; exact agree y (by simp [borrowFieldClassByPath,
            compoundBorrowFieldClassByIndex, reached]))

/-- An update that keeps the erased class at its position keeps the erased tree. -/
theorem eraseTargets_modifyAt {f : CtfFieldClass → CtfFieldClass} (path : List Int) :
    ∀ {fc : CtfFieldClass}, (∀ x, fc.borrowFieldClassByPath path = some x → (f x).eraseTargets = x.eraseTargets) →
      (modifyAt f path fc).eraseTargets = fc.eraseTargets := by
  induction path with
  | nil => intro fc keeps; exact keeps fc rfl
  | cons index path ih =>
      intro fc keeps
      cases fc <;> simp only [modifyAt, eraseTargets_struct, eraseTargets_variant, eraseTargets_array,
        eraseTargets_sequence]
      all_goals first
        | rfl
        | (congr 1; apply mapMembers_modifyMember; intro x found; apply ih; intro y reached;
            exact keeps y (by simp [borrowFieldClassByPath, compoundBorrowFieldClassByIndex, found, reached]))
        | (congr 1; apply ih; intro y reached; exact keeps y (by simp [borrowFieldClassByPath,
            compoundBorrowFieldClassByIndex, reached]))

end CtfFieldClass

namespace CtfTraceClass

open CtfFieldClass

theorem rootClass_mapRoots (f : CtfFieldClass → CtfFieldClass) (tc : CtfTraceClass) (r : RootClassRef) :
    (tc.mapRoots f).rootClass r = (tc.rootClass r).map f := by
  cases r <;>
    simp [mapRoots, rootClass, eventClass, CtfStreamClass.mapRoots, CtfEventClass.mapRoots,
      Option.map_bind, Option.bind_map, Option.bind_assoc, Function.comp_def]

theorem rootClass_eraseTargets (tc : CtfTraceClass) (r : RootClassRef) :
    tc.eraseTargets.rootClass r = (tc.rootClass r).map CtfFieldClass.eraseTargets :=
  rootClass_mapRoots _ tc r

theorem bind_ite_fun {α β : Type} (x : Option α) (c : Prop) [Decidable c] (A B : α → Option β) :
    x.bind (fun s => if c then A s else B s) = if c then x.bind A else x.bind B := by
  split_ifs <;> rfl

@[simp] theorem packetHeaderFc_modifyStreamClass (tc : CtfTraceClass) (sc : Nat)
    (g : CtfStreamClass → CtfStreamClass) : (tc.modifyStreamClass sc g).packetHeaderFc = tc.packetHeaderFc :=
  rfl

/-- A read below stream class `i` after an update of stream class `sc`. -/
theorem bind_modifyStreamClass (tc : CtfTraceClass) (sc i : Nat) (g : CtfStreamClass → CtfStreamClass)
    (read : CtfStreamClass → Option CtfFieldClass) :
    ((tc.modifyStreamClass sc g).streamClasses[i]?).bind read =
      if sc = i then (tc.streamClasses[i]?).bind (fun s => read (g s)) else (tc.streamClasses[i]?).bind read := by
  simp only [modifyStreamClass, List.getElem?_modify]
  split_ifs <;> cases tc.streamClasses[i]? <;> rfl

/-- A read below event class `j` after an update of event class `ec`. -/
theorem bind_modify_eventClasses (s : CtfStreamClass) (ec j : Nat) (g : CtfEventClass → CtfEventClass)
    (read : CtfEventClass → Option CtfFieldClass) :
    ((s.eventClasses.modify g ec)[j]?).bind read =
      if ec = j then (s.eventClasses[j]?).bind (fun e => read (g e)) else (s.eventClasses[j]?).bind read := by
  simp only [List.getElem?_modify]
  split_ifs <;> cases s.eventClasses[j]? <;> rfl

/-- A store through one root pointer is seen through that pointer only. -/
theorem rootClass_modifyRootClass (tc : CtfTraceClass) (f : CtfFieldClass → CtfFieldClass)
    (target r : RootClassRef) :
    (tc.modifyRootClass f target).rootClass r =
      if target = r then (tc.rootClass r).map f else tc.rootClass r := by
  cases target <;> cases r <;>
    simp only [modifyRootClass, rootClass, modifyEventClass, eventClass, Option.bind_assoc,
      bind_modifyStreamClass, bind_modify_eventClasses, packetHeaderFc_modifyStreamClass, bind_ite_fun,
      Option.map_bind, Function.comp_def, reduceCtorEq, RootClassRef.packetContext.injEq,
      RootClassRef.eventHeader.injEq, RootClassRef.eventCommonContext.injEq, RootClassRef.eventSpecContext.injEq,
      RootClassRef.eventPayload.injEq, ite_and, if_true, if_false, ite_self]

theorem rootClass_modifyRootClass_self (tc : CtfTraceClass) (f : CtfFieldClass → CtfFieldClass)
    (r : RootClassRef) : (tc.modifyRootClass f r).rootClass r = (tc.rootClass r).map f := by
  simp [rootClass_modifyRootClass]

theorem rootClass_modifyRootClass_of_ne (tc : CtfTraceClass) (f : CtfFieldClass → CtfFieldClass)
    {target r : RootClassRef} (other : target ≠ r) :
    (tc.modifyRootClass f target).rootClass r = tc.rootClass r := by
  simp [rootClass_modifyRootClass, other]

theorem modifyRootClass_comp (tc : CtfTraceClass) (f g : CtfFieldClass → CtfFieldClass) (r : RootClassRef) :
    (tc.modifyRootClass f r).modifyRootClass g r = tc.modifyRootClass (g ∘ f) r := by
  cases r <;>
    simp [modifyRootClass, modifyEventClass, modifyStreamClass, List.modify_modify_eq,
      Function.comp_def, Option.map_map]

@[simp] theorem modifyRootClass_id (tc : CtfTraceClass) (r : RootClassRef) : tc.modifyRootClass id r = tc := by
  have streams : ∀ g : CtfStreamClass → CtfStreamClass, g = id → ∀ sc, tc.modifyStreamClass sc g = tc := by
    rintro g rfl sc
    simp [modifyStreamClass]
  have events : ∀ g : CtfEventClass → CtfEventClass, g = id → ∀ sc ec, tc.modifyEventClass sc ec g = tc := by
    rintro g rfl sc ec
    exact streams _ (funext fun s => by cases s; simp) sc
  cases r with
  | packetHeader => simp [modifyRootClass]
  | packetContext sc | eventHeader sc | eventCommonContext sc =>
      exact streams _ (funext fun s => by cases s; simp) sc
  | eventSpecContext sc ec | eventPayload sc ec => exact events _ (funext fun e => by cases e; simp) sc ec

theorem modifyRootClass_congr {tc : CtfTraceClass} {f g : CtfFieldClass → CtfFieldClass}
    {r : RootClassRef} (agree : ∀ x, tc.rootClass r = some x → f x = g x) :
    tc.modifyRootClass f r = tc.modifyRootClass g r := by
  have mapAgree : ∀ o : Option CtfFieldClass, (∀ x, o = some x → f x = g x) → o.map f = o.map g := by
    intro o same
    cases o <;> simp [same]
  cases r with
  | packetHeader => simp only [modifyRootClass]; rw [mapAgree tc.packetHeaderFc agree]
  | packetContext sc | eventHeader sc | eventCommonContext sc =>
      simp only [modifyRootClass, modifyStreamClass]
      congr 1
      apply modify_congr_of_getElem?
      intro s found
      rw [mapAgree _ fun x root => agree x (by simp [rootClass, found, root])]
  | eventSpecContext sc ec | eventPayload sc ec =>
      simp only [modifyRootClass, modifyEventClass, modifyStreamClass]
      congr 1
      apply modify_congr_of_getElem?
      intro s found
      congr 1
      apply modify_congr_of_getElem?
      intro e foundEvent
      rw [mapAgree _ fun x root => agree x (by simp [rootClass, eventClass, found, foundEvent, root])]

/-- An update that `h` cannot see through the root pointer is not seen by
`mapRoots h`. -/
theorem mapRoots_modifyRootClass {tc : CtfTraceClass} {f h : CtfFieldClass → CtfFieldClass}
    {r : RootClassRef} (keeps : ∀ x, tc.rootClass r = some x → h (f x) = h x) :
    (tc.modifyRootClass f r).mapRoots h = tc.mapRoots h := by
  have mapKeeps : ∀ o : Option CtfFieldClass, (∀ x, o = some x → h (f x) = h x) →
      (o.map f).map h = o.map h := by
    intro o same
    cases o <;> simp [same]
  cases r with
  | packetHeader => simp only [modifyRootClass, mapRoots]; rw [mapKeeps tc.packetHeaderFc keeps]
  | packetContext sc | eventHeader sc | eventCommonContext sc =>
      simp only [modifyRootClass, modifyStreamClass, mapRoots]
      congr 1
      apply map_modify_of_getElem?
      intro s found
      simp only [CtfStreamClass.mapRoots]
      rw [mapKeeps _ fun x root => keeps x (by simp [rootClass, found, root])]
  | eventSpecContext sc ec | eventPayload sc ec =>
      simp only [modifyRootClass, modifyEventClass, modifyStreamClass, mapRoots]
      congr 1
      apply map_modify_of_getElem?
      intro s found
      simp only [CtfStreamClass.mapRoots]
      congr 1
      apply map_modify_of_getElem?
      intro e foundEvent
      simp only [CtfEventClass.mapRoots]
      rw [mapKeeps _ fun x root => keeps x (by simp [rootClass, eventClass, found, foundEvent, root])]

theorem eraseTargets_modifyRootClass {tc : CtfTraceClass} {f : CtfFieldClass → CtfFieldClass}
    {r : RootClassRef} (keeps : ∀ x, tc.rootClass r = some x → (f x).eraseTargets = x.eraseTargets) :
    (tc.modifyRootClass f r).eraseTargets = tc.eraseTargets :=
  mapRoots_modifyRootClass keeps

theorem fieldClass_child (tc : CtfTraceClass) (fcRef : FieldClassRef) (index : Int) :
    tc.fieldClass (fcRef.child index) =
      (tc.fieldClass fcRef).bind (·.compoundBorrowFieldClassByIndex index) := by
  simp [fieldClass, FieldClassRef.child, borrowFieldClassByPath_concat, Option.bind_assoc]

theorem fieldClass_modifyFieldClass_self (tc : CtfTraceClass) (fcRef : FieldClassRef)
    (f : CtfFieldClass → CtfFieldClass) :
    (tc.modifyFieldClass fcRef f).fieldClass fcRef = (tc.fieldClass fcRef).map f := by
  simp [fieldClass, modifyFieldClass, rootClass_modifyRootClass_self, Option.bind_map,
    Function.comp_def, borrowFieldClassByPath_modifyAt_self]

theorem modifyFieldClass_comp (tc : CtfTraceClass) (fcRef : FieldClassRef)
    (f g : CtfFieldClass → CtfFieldClass) :
    (tc.modifyFieldClass fcRef f).modifyFieldClass fcRef g = tc.modifyFieldClass fcRef (g ∘ f) := by
  simp only [modifyFieldClass, modifyRootClass_comp]
  congr 1
  funext fc
  exact modifyAt_comp f g fcRef.position fc

theorem modifyFieldClass_congr {tc : CtfTraceClass} {fcRef : FieldClassRef}
    {f g : CtfFieldClass → CtfFieldClass} {fc : CtfFieldClass} (found : tc.fieldClass fcRef = some fc)
    (agree : f fc = g fc) : tc.modifyFieldClass fcRef f = tc.modifyFieldClass fcRef g := by
  apply modifyRootClass_congr
  intro root isRoot
  apply modifyAt_congr
  intro x reached
  have : x = fc := by simpa [fieldClass, isRoot, reached] using found
  rw [this, agree]

/-- Storing back the class a pointer already points to changes nothing. -/
theorem modifyFieldClass_const_self {tc : CtfTraceClass} {fcRef : FieldClassRef} {fc : CtfFieldClass}
    (found : tc.fieldClass fcRef = some fc) : tc.modifyFieldClass fcRef (fun _ => fc) = tc := by
  have same : tc.modifyFieldClass fcRef (fun _ => fc) = tc.modifyFieldClass fcRef id :=
    modifyFieldClass_congr found rfl
  rw [same, modifyFieldClass, funext (modifyAt_id fcRef.position)]
  exact modifyRootClass_id tc fcRef.root

theorem modifyFieldClass_child (tc : CtfTraceClass) (fcRef : FieldClassRef) (index : Int)
    (f : CtfFieldClass → CtfFieldClass) :
    tc.modifyFieldClass (fcRef.child index) f = tc.modifyFieldClass fcRef (modifyAt f [index]) := by
  simp only [modifyFieldClass, FieldClassRef.child]
  congr 1
  funext fc
  exact modifyAt_append f fcRef.position [index] fc

theorem modifyFieldClass_child_const {tc : CtfTraceClass} {fcRef : FieldClassRef} {fc : CtfFieldClass}
    (found : tc.fieldClass fcRef = some fc) (index : Int) (child : CtfFieldClass) :
    tc.modifyFieldClass (fcRef.child index) (fun _ => child) =
      tc.modifyFieldClass fcRef (fun _ => modifyAt (fun _ => child) [index] fc) := by
  rw [modifyFieldClass_child]
  exact modifyFieldClass_congr found rfl

@[simp] theorem modifyFieldClass_const_const (tc : CtfTraceClass) (fcRef : FieldClassRef)
    (first second : CtfFieldClass) :
    (tc.modifyFieldClass fcRef fun _ => first).modifyFieldClass fcRef (fun _ => second) =
      tc.modifyFieldClass fcRef fun _ => second :=
  modifyFieldClass_comp tc fcRef _ _

theorem eraseTargets_modifyFieldClass {tc : CtfTraceClass} {fcRef : FieldClassRef}
    {f : CtfFieldClass → CtfFieldClass} {fc : CtfFieldClass} (found : tc.fieldClass fcRef = some fc)
    (keeps : (f fc).eraseTargets = fc.eraseTargets) :
    (tc.modifyFieldClass fcRef f).eraseTargets = tc.eraseTargets := by
  apply eraseTargets_modifyRootClass
  intro root isRoot
  apply eraseTargets_modifyAt
  intro x reached
  have : x = fc := by simpa [fieldClass, isRoot, reached] using found
  rw [this, keeps]

end CtfTraceClass

/-- The layers of a trace class without the content of its root classes: which
stream classes, event classes and roots exist, and the translated flags. -/
def CtfTraceClass.shape (tc : CtfTraceClass) : CtfTraceClass := tc.mapRoots fun _ => .float

theorem list_eq_of_map_eq {α : Type} {l l' : List α} (g : α → α) (shape : l.map g = l'.map g)
    (same : ∀ (i : Nat) (a a' : α), l[i]? = some a → l'[i]? = some a' → g a = g a' → a = a') : l = l' := by
  apply List.ext_getElem?
  intro i
  have atIndex := congrArg (·[i]?) shape
  simp only [List.getElem?_map] at atIndex
  cases found : l[i]? <;> cases found' : l'[i]? <;> simp_all
  exact same i _ _ found found' atIndex

theorem CtfEventClass.ext_roots {ec ec' : CtfEventClass}
    (shape : ec.mapRoots (fun _ => .float) = ec'.mapRoots fun _ => .float)
    (spec : ec.specContextFc = ec'.specContextFc) (payload : ec.payloadFc = ec'.payloadFc) : ec = ec' := by
  cases ec
  cases ec'
  simp_all [CtfEventClass.mapRoots]

theorem CtfStreamClass.ext_roots {sc sc' : CtfStreamClass}
    (shape : sc.mapRoots (fun _ => .float) = sc'.mapRoots fun _ => .float)
    (packetContext : sc.packetContextFc = sc'.packetContextFc) (eventHeader : sc.eventHeaderFc = sc'.eventHeaderFc)
    (eventCommonContext : sc.eventCommonContextFc = sc'.eventCommonContextFc)
    (events : ∀ j : Nat, (sc.eventClasses[j]?).bind CtfEventClass.specContextFc =
        (sc'.eventClasses[j]?).bind CtfEventClass.specContextFc ∧
      (sc.eventClasses[j]?).bind CtfEventClass.payloadFc = (sc'.eventClasses[j]?).bind CtfEventClass.payloadFc) :
    sc = sc' := by
  obtain ⟨pc, eh, ecc, ecs, translated⟩ := sc
  obtain ⟨pc', eh', ecc', ecs', translated'⟩ := sc'
  simp only [CtfStreamClass.mapRoots, CtfStreamClass.mk.injEq] at shape packetContext eventHeader eventCommonContext ⊢
  refine ⟨packetContext, eventHeader, eventCommonContext,
    list_eq_of_map_eq _ shape.2.2.2.1 fun j ec ec' found found' same => ?_, shape.2.2.2.2⟩
  have atIndex := events j
  simp only [found, found', Option.some_bind] at atIndex
  exact CtfEventClass.ext_roots same atIndex.1 atIndex.2

/-- A trace class is its shape and its root classes. -/
theorem CtfTraceClass.ext_rootClass {tc tc' : CtfTraceClass} (shape : tc.shape = tc'.shape)
    (roots : ∀ r, tc.rootClass r = tc'.rootClass r) : tc = tc' := by
  obtain ⟨ph, scs, translated⟩ := tc
  obtain ⟨ph', scs', translated'⟩ := tc'
  simp only [CtfTraceClass.shape, CtfTraceClass.mapRoots, CtfTraceClass.mk.injEq] at shape ⊢
  refine ⟨roots .packetHeader, list_eq_of_map_eq _ shape.2.1 fun i sc sc' found found' same => ?_, shape.2.2⟩
  refine CtfStreamClass.ext_roots same ?_ ?_ ?_ fun j => ⟨?_, ?_⟩
  · simpa [CtfTraceClass.rootClass, found, found'] using roots (.packetContext i)
  · simpa [CtfTraceClass.rootClass, found, found'] using roots (.eventHeader i)
  · simpa [CtfTraceClass.rootClass, found, found'] using roots (.eventCommonContext i)
  · simpa [CtfTraceClass.rootClass, CtfTraceClass.eventClass, found, found'] using roots (.eventSpecContext i j)
  · simpa [CtfTraceClass.rootClass, CtfTraceClass.eventClass, found, found'] using roots (.eventPayload i j)

theorem CtfTraceClass.shape_modifyRootClass (tc : CtfTraceClass) (f : CtfFieldClass → CtfFieldClass)
    (r : RootClassRef) : (tc.modifyRootClass f r).shape = tc.shape :=
  CtfTraceClass.mapRoots_modifyRootClass fun _ _ => rfl

end Btrace.Ctf
