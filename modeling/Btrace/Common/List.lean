import Mathlib.Data.List.Chain
import Mathlib.Data.List.Nodup
import Mathlib.Logic.Function.Basic

set_option autoImplicit false

/- The intrusive doubly-linked lists of `common/list.h`, on Zephyr's
`dlist.h`: a `struct bt_list_head` is Zephyr's `struct _dnode`, whose first
pointer is a list's `head` and a node's `next`, and whose second is a list's
`tail` and a node's `prev`. A list is circular through its head, which points
at itself when the list is empty. Memory is the two links of every node, by
address. -/
namespace Btrace.Common

/-- The `next` (`head`) and `prev` (`tail`) pointers of every `struct bt_list_head`. -/
structure ListHeap where
  next : Nat → Nat
  prev : Nat → Nat

/-- `node->next = v`. -/
def ListHeap.setNext (h : ListHeap) (node v : Nat) : ListHeap := { h with next := Function.update h.next node v }

/-- `node->prev = v`. -/
def ListHeap.setPrev (h : ListHeap) (node v : Nat) : ListHeap := { h with prev := Function.update h.prev node v }

/-- `sys_dlist_is_empty` of `dlist.h`: `list->head == list`. -/
def sysDlistIsEmpty (h : ListHeap) (list : Nat) : Bool := h.next list == list

/-- `sys_dlist_splice(list, add)`: the nodes of `add` moved before those of
`list`, each store reading the pointers as the stores before it left them. -/
def sysDlistSplice (h : ListHeap) (list add : Nat) : ListHeap :=
  if !sysDlistIsEmpty h add then
    let h := h.setPrev (h.next add) list
    let h := h.setNext (h.prev add) (h.next list)
    let h := h.setPrev (h.next list) (h.prev add)
    h.setNext list (h.next add)
  else h

/-- `bt_list_splice(add, head)`. -/
def btListSplice (h : ListHeap) (add head : Nat) : ListHeap := sysDlistSplice h head add

/-- `a->next` is `b` and `b->prev` is `a`. -/
def Linked (h : ListHeap) (a b : Nat) : Prop := h.next a = b ∧ h.prev b = a

instance (h : ListHeap) : DecidableRel (Linked h) := fun _ _ => inferInstanceAs (Decidable (_ ∧ _))

/-- `list` heads a circular doubly-linked list of the distinct nodes `nodes`, in
order: `next` from `list` visits them and comes back to `list`, and `prev`
goes the same way backwards. -/
def DList (h : ListHeap) (list : Nat) (nodes : List Nat) : Prop :=
  (list :: nodes ++ [list]).Chain' (Linked h) ∧ (list :: nodes).Nodup

/-! ## The stores of a splice -/

/-- The pointers after a splice that moves the nodes from `first` to `last`
between `head` and its old first node `afterHead`. -/
def ListHeap.spliced (h : ListHeap) (head first last afterHead : Nat) : ListHeap :=
  ⟨Function.update (Function.update h.next last afterHead) head first,
    Function.update (Function.update h.prev first head) afterHead last⟩

/-- The four stores of a splice of a non-empty `add` into `list`, when the
tail of `add` is neither `add` nor `list`. -/
theorem sysDlistSplice_of_nonempty {h : ListHeap} {list add : Nat} (nonempty : h.next add ≠ add)
    (addTail : h.prev add ≠ add) (listTail : h.prev add ≠ list) :
    sysDlistSplice h list add = h.spliced list (h.next add) (h.prev add) (h.next list) := by
  have moving : (!sysDlistIsEmpty h add) = true := by simpa [sysDlistIsEmpty] using nonempty
  rw [sysDlistSplice, if_pos moving]
  simp only [ListHeap.setNext, ListHeap.setPrev, ListHeap.spliced, Function.update_noteq nonempty.symm,
    Function.update_noteq listTail.symm, Function.update_noteq addTail.symm]

theorem sysDlistSplice_of_empty {h : ListHeap} {list add : Nat} (empty : h.next add = add) :
    sysDlistSplice h list add = h := by
  simp [sysDlistSplice, sysDlistIsEmpty, empty]

section Spliced

variable {h : ListHeap} {head first last afterHead : Nat}

theorem ListHeap.spliced_next {a : Nat} (notHead : a ≠ head) (notLast : a ≠ last) :
    (h.spliced head first last afterHead).next a = h.next a := by
  simp only [ListHeap.spliced, Function.update_noteq notHead, Function.update_noteq notLast]

theorem ListHeap.spliced_prev {a : Nat} (notAfter : a ≠ afterHead) (notFirst : a ≠ first) :
    (h.spliced head first last afterHead).prev a = h.prev a := by
  simp only [ListHeap.spliced, Function.update_noteq notAfter, Function.update_noteq notFirst]

theorem ListHeap.linked_spliced_head (apart : first ≠ afterHead) :
    Linked (h.spliced head first last afterHead) head first := by
  simp only [Linked, ListHeap.spliced, Function.update_same, Function.update_noteq apart, and_self]

theorem ListHeap.linked_spliced_last (apart : last ≠ head) :
    Linked (h.spliced head first last afterHead) last afterHead := by
  simp only [Linked, ListHeap.spliced, Function.update_same, Function.update_noteq apart, and_self]

end Spliced

/-! ## Chains of links -/

/-- A chain of links holds in a new heap that keeps the `next` of every node
but the last and the `prev` of every node but the first. -/
theorem chain'_linked_of_keeps {h h' : ListHeap} : ∀ {nodes : List Nat}, nodes.Chain' (Linked h) →
    (∀ a ∈ nodes.dropLast, h'.next a = h.next a) → (∀ b ∈ nodes.tail, h'.prev b = h.prev b) →
      nodes.Chain' (Linked h')
  | [], _, _, _ => List.chain'_nil
  | [_], _, _, _ => List.chain'_singleton _
  | a :: b :: rest, chain, nexts, prevs => by
      obtain ⟨⟨next, prev⟩, chain⟩ := List.chain'_cons.1 chain
      refine List.chain'_cons.2 ⟨⟨(nexts a (List.mem_cons_self _ _)).trans next,
        (prevs b (List.mem_cons_self _ _)).trans prev⟩, chain'_linked_of_keeps chain ?_ ?_⟩
      · exact fun x mem => nexts x (List.mem_cons_of_mem _ mem)
      · exact fun x mem => prevs x (List.mem_cons_of_mem _ mem)

theorem ne_getLast_of_mem_dropLast {l : List Nat} (nodup : l.Nodup) (nonempty : l ≠ []) {a : Nat}
    (mem : a ∈ l.dropLast) : a ≠ l.getLast nonempty := by
  rw [← List.dropLast_append_getLast nonempty, List.nodup_append] at nodup
  exact fun same => nodup.2.2 mem (same ▸ List.mem_singleton_self _)

/-- A non-empty list: `list` leads to its first node, its nodes are linked in
order, and its last node leads back to `list`. -/
theorem DList.ends {h : ListHeap} {list y : Nat} {ys : List Nat} (listed : DList h list (y :: ys)) :
    Linked h list y ∧ (y :: ys).Chain' (Linked h) ∧ Linked h ((y :: ys).getLast (List.cons_ne_nil _ _)) list := by
  obtain ⟨first, rest⟩ := List.chain'_cons.1 listed.1
  have rest : ((y :: ys) ++ [list]).Chain' (Linked h) := rest
  obtain ⟨inner, -, last⟩ := List.chain'_append.1 rest
  exact ⟨first, inner, last _ (by rw [List.getLast?_eq_getLast]; rfl) _ rfl⟩

/-! ## Splicing two lists -/

/-- The old first node of `head`: its first node, or `head` itself when empty. -/
theorem DList.next_head {h : ListHeap} {head : Nat} {xs : List Nat} (headed : DList h head xs) :
    h.next head = (xs ++ [head]).head (by simp) ∧ (xs ++ [head]).Chain' (Linked h) :=
  have ⟨toFirst, rest⟩ := List.chain'_cons'.1 headed.1
  ⟨(toFirst _ (List.head?_eq_head _)).1, rest⟩

/-- Moving the non-empty list of `add` before the nodes of `head` links `head`,
the moved nodes, the nodes of `head` and `head` again in a cycle. -/
theorem dList_spliced {h : ListHeap} {add head y : Nat} {ys xs : List Nat} (added : DList h add (y :: ys))
    (headed : DList h head xs) (apart : (add :: y :: ys).Disjoint (head :: xs)) :
    DList (h.spliced head y ((y :: ys).getLast (List.cons_ne_nil _ _)) (h.next head)) head (y :: ys ++ xs) := by
  obtain ⟨-, inner, -⟩ := added.ends
  obtain ⟨toX, tailChain⟩ := headed.next_head
  generalize xDef : (xs ++ [head]).head _ = x at toX
  rw [toX]
  have ysNodup := (List.nodup_cons.1 added.2).2
  have headOut : head ∉ xs := (List.nodup_cons.1 headed.2).1
  have xOut : x ∉ (xs ++ [head]).tail := by
    have split := (List.perm_append_singleton head xs).nodup_iff.2 headed.2
    rw [← List.head_cons_tail (xs ++ [head]) (by simp), xDef] at split
    exact (List.nodup_cons.1 split).1
  have inHead : ∀ {a}, a ∈ xs ++ [head] → a ∈ head :: xs := fun mem => (List.perm_append_singleton head xs).subset mem
  have apartAt : ∀ {a b}, a ∈ y :: ys → b ∈ head :: xs → a ≠ b :=
    fun am bm same => apart (List.mem_cons_of_mem _ am) (same ▸ bm)
  have xIn : x ∈ head :: xs := inHead (xDef ▸ List.head_mem _)
  have ylIn := List.getLast_mem (List.cons_ne_nil y ys)
  refine ⟨?_, List.nodup_cons.2 ⟨fun mem => ?_, List.nodup_append.2 ⟨ysNodup, (List.nodup_cons.1 headed.2).2,
    fun a am bm => apartAt am (List.mem_cons_of_mem _ bm) rfl⟩⟩⟩
  · -- `head`, the moved nodes, the nodes of `head`, and back to `head`
    rw [show head :: (y :: ys ++ xs) ++ [head] = (head :: y :: ys) ++ (xs ++ [head]) by simp]
    refine List.chain'_append.2 ⟨List.chain'_cons.2 ⟨ListHeap.linked_spliced_head (apartAt (List.mem_cons_self _ _) xIn),
      chain'_linked_of_keeps inner ?_ ?_⟩, chain'_linked_of_keeps tailChain ?_ ?_, fun a last b first => ?_⟩
    · exact fun a mem => ListHeap.spliced_next (apartAt (List.dropLast_subset _ mem) (List.mem_cons_self _ _))
        (ne_getLast_of_mem_dropLast ysNodup _ mem)
    · exact fun b mem => ListHeap.spliced_prev (apartAt (List.mem_cons_of_mem _ mem) xIn)
        fun same => (List.nodup_cons.1 ysNodup).1 (same ▸ mem)
    · intro a mem
      rw [List.dropLast_concat] at mem
      exact ListHeap.spliced_next (fun same => headOut (same ▸ mem))
        fun same => apartAt ylIn (List.mem_cons_of_mem _ mem) same.symm
    · exact fun b mem => ListHeap.spliced_prev (fun same => xOut (same ▸ mem))
        fun same => apartAt (List.mem_cons_self _ _) (inHead (List.mem_of_mem_tail mem)) same.symm
    · rw [List.getLast?_cons_cons, List.getLast?_eq_getLast _ (List.cons_ne_nil _ _), Option.mem_some_iff] at last
      rw [List.head?_eq_head (by simp), Option.mem_some_iff, xDef] at first
      rw [← last, ← first]
      exact ListHeap.linked_spliced_last (apartAt ylIn (List.mem_cons_self _ _))
  · rcases List.mem_append.1 mem with inYs | inXs
    · exact apartAt inYs (List.mem_cons_self _ _) rfl
    · exact headOut inXs

/-- `bt_list_splice(add, head)` on two lists with no node in common: `head`
then heads the nodes of `add` followed by its own, and no pointer of any other
node changes. In particular `add` is left as it was, its `head` and `tail`
still at nodes that are now in `head`'s list, so that, when it had nodes, it
heads no list at all until it is initialised again. -/
theorem btListSplice_moves_nodes_to_front {h : ListHeap} {add head : Nat} {ys xs : List Nat}
    (added : DList h add ys) (headed : DList h head xs) (apart : (add :: ys).Disjoint (head :: xs)) :
    DList (btListSplice h add head) head (ys ++ xs) ∧
      (∀ a, a ∉ head :: (ys ++ xs) →
        (btListSplice h add head).next a = h.next a ∧ (btListSplice h add head).prev a = h.prev a) ∧
      (ys ≠ [] → ∀ zs, ¬DList (btListSplice h add head) add zs) := by
  cases ys with
  | nil =>
      rw [btListSplice, sysDlistSplice_of_empty (List.chain'_cons.1 added.1).1.1, List.nil_append]
      exact ⟨headed, fun _ _ => ⟨rfl, rfl⟩, fun nonempty => absurd rfl nonempty⟩
  | cons y ys =>
      obtain ⟨⟨toFirst, -⟩, -, ⟨-, toLast⟩⟩ := added.ends
      have addOut := (List.nodup_cons.1 added.2).1
      have ylIn := List.getLast_mem (List.cons_ne_nil y ys)
      have addNeHead : add ≠ head := fun same => apart (List.mem_cons_self _ _) (same ▸ List.mem_cons_self _ _)
      have addNeYl : add ≠ (y :: ys).getLast (List.cons_ne_nil _ _) := fun same => addOut (same ▸ ylIn)
      have ylNeHead : (y :: ys).getLast (List.cons_ne_nil _ _) ≠ head :=
        fun same => apart (List.mem_cons_of_mem _ ylIn) (same ▸ List.mem_cons_self _ _)
      rw [btListSplice, sysDlistSplice_of_nonempty (toFirst ▸ fun same => addOut (same ▸ List.mem_cons_self _ _))
        (toLast ▸ addNeYl.symm) (toLast ▸ ylNeHead), toFirst, toLast]
      have xIn : h.next head ∈ head :: xs :=
        headed.next_head.1 ▸ (List.perm_append_singleton head xs).subset (List.head_mem _)
      refine ⟨dList_spliced added headed apart, fun a out => ?_, fun _ zs list => ?_⟩
      · -- every other node keeps its pointers
        have notIn : ∀ {b}, b ∈ head :: (y :: ys ++ xs) → a ≠ b := fun mem same => out (same ▸ mem)
        have moved : ∀ {b}, b ∈ y :: ys → b ∈ head :: (y :: ys ++ xs) :=
          fun mem => List.mem_cons_of_mem _ (List.mem_append_left _ mem)
        have xSpliced : h.next head ∈ head :: (y :: ys ++ xs) := by
          rcases List.mem_cons.1 xIn with isHead | inXs
          · rw [isHead]
            exact List.mem_cons_self _ _
          · exact List.mem_cons_of_mem _ (List.mem_append_right _ inXs)
        exact ⟨ListHeap.spliced_next (notIn (List.mem_cons_self _ _)) (notIn (moved ylIn)),
          ListHeap.spliced_prev (notIn xSpliced) (notIn (moved (List.mem_cons_self _ _)))⟩
      · -- `add` still leads to `y`, whose `prev` is now `head`
        obtain ⟨next, back⟩ := (List.chain'_cons'.1 list.1).1 _ (List.head?_eq_head (by simp))
        rw [ListHeap.spliced_next addNeHead addNeYl, toFirst] at next
        rw [← next] at back
        have yNeX : y ≠ h.next head :=
          fun same => apart (List.mem_cons_of_mem _ (List.mem_cons_self _ _)) (same ▸ xIn)
        exact addNeHead (back.symm.trans (ListHeap.linked_spliced_head yNeX).2)

/-- Two lists: `1` heads the node `2`, and `3` heads the nodes `4` and `5`. -/
def twoLists : ListHeap where
  next | 1 => 2 | 2 => 1 | 3 => 4 | 4 => 5 | 5 => 3 | _ => 0
  prev | 1 => 2 | 2 => 1 | 3 => 5 | 4 => 3 | 5 => 4 | _ => 0

theorem btListSplice_twoLists :
    DList twoLists 3 [4, 5] ∧ DList twoLists 1 [2] ∧ [3, 4, 5].Disjoint [1, 2] ∧
      DList (btListSplice twoLists 3 1) 1 ([4, 5] ++ [2]) :=
  have added : DList twoLists 3 [4, 5] := by simp [DList, Linked, twoLists]
  have headed : DList twoLists 1 [2] := by simp [DList, Linked, twoLists]
  have apart : [3, 4, 5].Disjoint [1, 2] := by simp
  ⟨added, headed, apart, (btListSplice_moves_nodes_to_front added headed apart).1⟩

end Btrace.Common
