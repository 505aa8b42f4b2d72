import Mathlib

set_option autoImplicit false

/- The object stack of the CTF metadata parser (`objstack.cpp`): a list of
nodes, each a `data` area of `len` bytes of which the first `used_len` are
handed out. `objstack_alloc` rounds the request up to `OBJSTACK_ALIGN`,
appends nodes of twice the last capacity until the last node has room, and
bumps that node's `used_len`. Every `size_t` operation wraps modulo `2^64`, and
`calloc` is an oracle that says which sizes it can allocate. -/
namespace Btrace.Ctf

/-- `SIZE_MAX + 1`: `size_t` is 64 bits wide. -/
def sizeModulus : Nat := 2 ^ 64

/-- `SIZE_MAX`. -/
def sizeMax : Nat := sizeModulus - 1

/-- `a + b` on `size_t`. -/
def sizeAdd (a b : Nat) : Nat := (a + b) % sizeModulus

/-- `a - b` on `size_t`, for `b` a `size_t` value. -/
def sizeSub (a b : Nat) : Nat := (a + (sizeModulus - b)) % sizeModulus

/-- `a << 1` on `size_t`. -/
def sizeDouble (a : Nat) : Nat := a * 2 % sizeModulus

/-- `BT_ALIGN(x, a)` of `common/align.h` for `a` a power of two:
`(x + a - 1) & ~(a - 1)` on `size_t`, that is `x + a - 1` rounded down to a
multiple of `a`. -/
def btAlign (x a : Nat) : Nat := sizeAdd x (a - 1) / a * a

/-- `OBJSTACK_ALIGN`. -/
def objstackAlign : Nat := 8

/-- `OBJSTACK_INIT_LEN`. -/
def objstackInitLen : Nat := 128

/-- `sizeof(struct objstack)`: one list head of two pointers. -/
def objstackSize : Nat := 16

/-- `sizeof(struct objstack_node)`: a list head, `len` and `used_len`; the
flexible array `data` adds nothing. -/
def objstackNodeSize : Nat := 32

/-- `struct objstack_node` without its list links: the capacity `len` of its
`data` area and the `used_len` bytes of it already handed out. -/
structure ObjstackNode where
  len : Nat
  usedLen : Nat
  deriving DecidableEq, Repr

/-- `struct objstack`: its nodes in list order. `objstack_create` puts one node
in the list and nothing removes one before `objstack_destroy`, so
`objstack->head.prev` is always a node. -/
structure Objstack where
  nodes : List ObjstackNode
  nonempty : nodes ≠ []

/-- `bt_list_entry(objstack->head.prev, struct objstack_node, node)`. -/
def Objstack.lastNode (s : Objstack) : ObjstackNode := s.nodes.getLast s.nonempty

/-- `last_node->used_len = usedLen`. -/
def Objstack.setLastUsedLen (s : Objstack) (usedLen : Nat) : Objstack :=
  ⟨s.nodes.set (s.nodes.length - 1) { s.lastNode with usedLen }, by simpa using s.nonempty⟩

/-- `objstack_create`; `none` is its `NULL`, when either `calloc` fails. The
node comes zeroed from `calloc`, so its `used_len` is 0. -/
def objstackCreate (calloc : Nat → Bool) : Option Objstack :=
  if calloc objstackSize && calloc (objstackNodeSize + objstackInitLen) then
    some ⟨[⟨objstackInitLen, 0⟩], List.cons_ne_nil _ _⟩
  else none

/-- `objstack_append_node`: a zeroed node of twice the last node's capacity at
the end of the list; `none` is its `NULL`, when `calloc` fails. -/
def objstackAppendNode (calloc : Nat → Bool) (s : Objstack) : Option Objstack :=
  if calloc (sizeAdd objstackNodeSize (sizeDouble s.lastNode.len)) then
    some ⟨s.nodes ++ [⟨sizeDouble s.lastNode.len, 0⟩], by simp⟩
  else none

/-- How the loop of `objstack_alloc` ends: the last node has room, or
`objstack_append_node` returned `NULL`. The nodes it appended stay either way. -/
inductive AllocLoopExit where
  | room (s : Objstack)
  | noNode (s : Objstack)

/-- `while (last_node->len - last_node->used_len < len)` appending a node at
each turn; `none` when `fuel` turns are not enough. -/
def objstackAllocLoop (calloc : Nat → Bool) (len : Nat) : Nat → Objstack → Option AllocLoopExit
  | 0, _ => none
  | fuel + 1, s =>
      if sizeSub s.lastNode.len s.lastNode.usedLen < len then
        match objstackAppendNode calloc s with
        | some s => objstackAllocLoop calloc len fuel s
        | none => some (.noNode s)
      else some (.room s)

/-- `&node->data[offset]`, for the node at index `node` of the list. -/
structure ObjstackPtr where
  node : Nat
  offset : Nat
  deriving DecidableEq, Repr

/-- What `objstack_alloc` returns, with the objstack it leaves. -/
inductive AllocResult where
  | ptr (p : ObjstackPtr) (s : Objstack)
  | null (s : Objstack)

/-- `objstack_alloc`, its loop given `fuel` turns. -/
def objstackAlloc (calloc : Nat → Bool) (fuel : Nat) (s : Objstack) (len : Nat) : Option AllocResult :=
  let len := btAlign len objstackAlign
  (objstackAllocLoop calloc len fuel s).map fun
    | .room s =>
        .ptr ⟨s.nodes.length - 1, s.lastNode.usedLen⟩ (s.setLastUsedLen (sizeAdd s.lastNode.usedLen len))
    | .noNode s => .null s

/-- A caller of `objstack_alloc` asking for each length in turn, each call given
`fuel` turns of its loop: the pointers returned, in call order, and the
objstack left. `none` when a call returns `NULL` or runs out of fuel. -/
def objstackAllocAll (calloc : Nat → Bool) (fuel : Nat) : Objstack → List Nat → Option (List ObjstackPtr × Objstack)
  | s, [] => some ([], s)
  | s, len :: lens =>
      match objstackAlloc calloc fuel s len with
      | some (.ptr p s) => (objstackAllocAll calloc fuel s lens).map fun (ptrs, s) => (p :: ptrs, s)
      | _ => none

/-- A `calloc` that always returns memory. -/
def callocSucceeds : Nat → Bool := fun _ => true

/-! ## The model's arithmetic and list updates -/

theorem sizeAdd_of_lt {a b : Nat} (fits : a + b < sizeModulus) : sizeAdd a b = a + b := Nat.mod_eq_of_lt fits

theorem sizeSub_of_le {a b : Nat} (le : b ≤ a) (fits : a < sizeModulus) : sizeSub a b = a - b := by
  rw [sizeSub, show a + (sizeModulus - b) = a - b + sizeModulus by omega, Nat.add_mod_right, Nat.mod_eq_of_lt (by omega)]

/-- For a request of at most `SIZE_MAX / 2` bytes, `BT_ALIGN(len, 8)` does not
wrap: it is at least `len` and at most `2^63`. -/
theorem btAlign_bounds {len : Nat} (half : len ≤ sizeMax / 2) :
    len ≤ btAlign len objstackAlign ∧ btAlign len objstackAlign ≤ 2 ^ 63 := by
  unfold sizeMax sizeModulus at half
  have noWrap : sizeAdd len 7 = len + 7 := sizeAdd_of_lt (by unfold sizeModulus; omega)
  rw [btAlign, objstackAlign, show 8 - 1 = 7 from rfl, noWrap]
  omega

theorem getElem?_concat {α : Type} (l : List α) (a : α) (k : Nat) :
    (l ++ [a])[k]? = if k = l.length then some a else l[k]? := by
  split
  · subst k
    exact List.getElem?_concat_length l a
  · rcases Nat.lt_or_ge k l.length with before | after
    · exact List.getElem?_append_left before
    · rw [List.getElem?_append_right after, List.getElem?_eq_none (by simp only [List.length_singleton]; omega),
        List.getElem?_eq_none (by omega)]

theorem Objstack.getElem?_lastNode (s : Objstack) : s.nodes[s.nodes.length - 1]? = some s.lastNode := by
  rw [Objstack.lastNode, List.getLast_eq_getElem, List.getElem?_eq_getElem]

theorem Objstack.lastNode_of_getElem? {s : Objstack} {node : ObjstackNode}
    (last : s.nodes[s.nodes.length - 1]? = some node) : s.lastNode = node := by
  rw [s.getElem?_lastNode] at last
  exact Option.some.inj last

theorem Objstack.length_pos (s : Objstack) : 0 < s.nodes.length := List.length_pos.2 s.nonempty

@[simp] theorem Objstack.setLastUsedLen_length (s : Objstack) (usedLen : Nat) :
    (s.setLastUsedLen usedLen).nodes.length = s.nodes.length := List.length_set ..

theorem Objstack.getElem?_setLastUsedLen (s : Objstack) (usedLen k : Nat) :
    (s.setLastUsedLen usedLen).nodes[k]? =
      if k = s.nodes.length - 1 then some { s.lastNode with usedLen } else s.nodes[k]? := by
  have last := s.length_pos
  rw [Objstack.setLastUsedLen, List.getElem?_set]
  by_cases at_last : k = s.nodes.length - 1
  · rw [if_pos at_last.symm, if_pos (by omega), if_pos at_last]
  · rw [if_neg (Ne.symm at_last), if_neg at_last]

theorem objstackAppendNode_callocSucceeds (s : Objstack) :
    objstackAppendNode callocSucceeds s = some ⟨s.nodes ++ [⟨sizeDouble s.lastNode.len, 0⟩], by simp⟩ := rfl

@[simp] theorem Objstack.lastNode_concat (nodes : List ObjstackNode) (node : ObjstackNode) (h : nodes ++ [node] ≠ []) :
    (⟨nodes ++ [node], h⟩ : Objstack).lastNode = node := List.getLast_concat nodes

/-! ## Two requests of half the address space -/

/-- A last node without capacity never lets the loop end: each turn appends a
node of capacity `0 << 1 = 0`. -/
theorem objstackAllocLoop_zero_capacity {len : Nat} (positive : 0 < len) :
    ∀ (fuel : Nat) (s : Objstack), s.lastNode = ⟨0, 0⟩ → objstackAllocLoop callocSucceeds len fuel s = none
  | 0, _, _ => rfl
  | fuel + 1, s, empty => by
      rw [objstackAllocLoop, if_pos (by rw [empty]; exact positive), objstackAppendNode_callocSucceeds]
      exact objstackAllocLoop_zero_capacity positive fuel _ (by rw [Objstack.lastNode_concat, empty]; rfl)

/-- What `objstack_create` builds when `calloc` succeeds. -/
def createdObjstack : Objstack := ⟨[⟨objstackInitLen, 0⟩], List.cons_ne_nil _ _⟩

/-- The objstack after one request of `SIZE_MAX / 2` bytes: 57 nodes of
capacities `128 * 2^k`, the last, of capacity `2^63`, full. -/
def halfFilledObjstack : Objstack :=
  ⟨(List.range 57).map fun k => ⟨objstackInitLen * 2 ^ k, if k = 56 then 2 ^ 63 else 0⟩, by simp⟩

/-- Two requests of `SIZE_MAX / 2` bytes with `calloc` always succeeding: the
first appends nodes up to the one of capacity `2^63` and fills it; the second
doubles that capacity to `2^64`, which is 0 in `size_t`, and its loop then
appends empty nodes for ever. -/
theorem objstackAlloc_second_half_never_returns :
    objstackCreate callocSucceeds = some createdObjstack ∧
      objstackAlloc callocSucceeds 57 createdObjstack (sizeMax / 2) = some (.ptr ⟨56, 0⟩ halfFilledObjstack) ∧
      ∀ fuel, objstackAlloc callocSucceeds fuel halfFilledObjstack (sizeMax / 2) = none := by
  have aligned : btAlign (sizeMax / 2) objstackAlign = 2 ^ 63 := rfl
  have stuck : ∀ fuel, objstackAllocLoop callocSucceeds (2 ^ 63) fuel halfFilledObjstack = none
    | 0 => rfl
    | fuel + 1 => by
        rw [objstackAllocLoop, if_pos (by decide), objstackAppendNode_callocSucceeds]
        exact objstackAllocLoop_zero_capacity (by decide) fuel _ (by rw [Objstack.lastNode_concat]; rfl)
  refine ⟨rfl, rfl, fun fuel => ?_⟩
  show Option.map _ (objstackAllocLoop callocSucceeds (btAlign (sizeMax / 2) objstackAlign) fuel _) = none
  rw [aligned, stuck]
  rfl

/-! ## Allocations of a bounded total -/

/-- The capacity `128 * 2^k` of the `k`-th node, doubled from `OBJSTACK_INIT_LEN`. -/
def nodeCapacity (k : Nat) : Nat := objstackInitLen * 2 ^ k

/-- The `k`-th node has capacity `128 * 2^k` and has handed out no more than that. -/
def NodeOk (k : Nat) (node : ObjstackNode) : Prop := node.len = nodeCapacity k ∧ node.usedLen ≤ node.len

/-- An objstack that never doubled past the node of capacity `2^63`. -/
structure ObjstackInv (s : Objstack) : Prop where
  /-- nodes `0` to `56` at most, so no capacity has wrapped -/
  length_le : s.nodes.length ≤ 57
  /-- every node has its capacity and room for what it handed out -/
  node_ok : ∀ k node, s.nodes[k]? = some node → NodeOk k node

/-- `size` bytes from `ptr`. -/
structure Region where
  ptr : ObjstackPtr
  size : Nat
  deriving DecidableEq, Repr

/-- Two regions share no byte: they are in different nodes, or one ends before
the other starts. -/
def Region.Disjoint (a b : Region) : Prop :=
  a.ptr.node ≠ b.ptr.node ∨ a.ptr.offset + a.size ≤ b.ptr.offset ∨ b.ptr.offset + b.size ≤ a.ptr.offset

/-- The regions an objstack has handed out: each below its node's `used_len`,
no two sharing a byte, and together at least the last node's `used_len`. -/
structure HandedOut (s : Objstack) (regions : List Region) : Prop where
  inside : ∀ r ∈ regions, ∃ node, s.nodes[r.ptr.node]? = some node ∧ r.ptr.offset + r.size ≤ node.usedLen
  disjoint : regions.Pairwise Region.Disjoint
  last_used_le : s.lastNode.usedLen ≤ (regions.map Region.size).sum

theorem nodeCapacity_le {k : Nat} (within : k ≤ 56) : nodeCapacity k ≤ 2 ^ 63 :=
  calc nodeCapacity k ≤ objstackInitLen * 2 ^ 56 := Nat.mul_le_mul_left _ (Nat.pow_le_pow_right (by decide) within)
    _ = 2 ^ 63 := rfl

theorem sizeDouble_nodeCapacity {k : Nat} (within : k < 56) : sizeDouble (nodeCapacity k) = nodeCapacity (k + 1) := by
  have next := nodeCapacity_le (k := k + 1) within
  unfold nodeCapacity at next ⊢
  rw [Nat.pow_succ, ← Nat.mul_assoc] at next ⊢
  exact Nat.mod_eq_of_lt (by unfold sizeModulus; omega)

theorem ObjstackInv.lastNode {s : Objstack} (inv : ObjstackInv s) : NodeOk (s.nodes.length - 1) s.lastNode :=
  inv.node_ok _ _ s.getElem?_lastNode

theorem objstackInv_created : ObjstackInv createdObjstack where
  length_le := by decide
  node_ok k node found := by
    cases k with
    | zero => cases Option.some.inj found; exact ⟨rfl, by decide⟩
    | succ k => cases found

theorem Objstack.lastNode_setLastUsedLen (s : Objstack) (usedLen : Nat) :
    (s.setLastUsedLen usedLen).lastNode = { s.lastNode with usedLen } :=
  Objstack.lastNode_of_getElem? (by rw [Objstack.getElem?_setLastUsedLen, Objstack.setLastUsedLen_length, if_pos rfl])

theorem ObjstackInv.sizeSub_lastNode {s : Objstack} (inv : ObjstackInv s) :
    sizeSub s.lastNode.len s.lastNode.usedLen = s.lastNode.len - s.lastNode.usedLen := by
  have capacity := nodeCapacity_le (k := s.nodes.length - 1) (by have := inv.length_le; omega)
  rw [← inv.lastNode.1] at capacity
  exact sizeSub_of_le inv.lastNode.2 (by unfold sizeModulus; omega)

/-- An appended node is the next of the doubling sequence and empty, so the
invariant holds again while there are at most 57 nodes. -/
theorem objstackInv_append {s : Objstack} (inv : ObjstackInv s) (room : s.nodes.length < 57) :
    ObjstackInv ⟨s.nodes ++ [⟨sizeDouble s.lastNode.len, 0⟩], by simp⟩ where
  length_le := by simp only [List.length_append, List.length_singleton]; omega
  node_ok k node found := by
    rw [getElem?_concat] at found
    by_cases fresh : k = s.nodes.length
    · rw [if_pos fresh] at found
      obtain rfl := Option.some.inj found
      have doubled := sizeDouble_nodeCapacity (k := s.nodes.length - 1) (by omega)
      rw [Nat.sub_add_cancel s.length_pos, ← inv.lastNode.1, ← fresh] at doubled
      exact ⟨doubled, Nat.zero_le _⟩
    · rw [if_neg fresh] at found
      exact inv.node_ok k node found

/-- Appending an empty node moves no region handed out. -/
theorem HandedOut.append {s : Objstack} {regions : List Region} (handed : HandedOut s regions)
    (node : ObjstackNode) (empty : node.usedLen = 0) : HandedOut ⟨s.nodes ++ [node], by simp⟩ regions where
  inside r mem := by
    obtain ⟨old, found, fits⟩ := handed.inside r mem
    have before := (List.getElem?_eq_some_iff.1 found).1
    exact ⟨old, by rw [getElem?_concat, if_neg (by omega), found], fits⟩
  disjoint := handed.disjoint
  last_used_le := by rw [Objstack.lastNode_concat, empty]; exact Nat.zero_le _

theorem objstackInv_setLastUsedLen {s : Objstack} (inv : ObjstackInv s) {usedLen : Nat}
    (room : usedLen ≤ s.lastNode.len) : ObjstackInv (s.setLastUsedLen usedLen) where
  length_le := by rw [Objstack.setLastUsedLen_length]; exact inv.length_le
  node_ok k node found := by
    rw [Objstack.getElem?_setLastUsedLen] at found
    by_cases last : k = s.nodes.length - 1
    · rw [if_pos last] at found
      obtain rfl := Option.some.inj found
      exact ⟨last ▸ inv.lastNode.1, room⟩
    · rw [if_neg last] at found
      exact inv.node_ok k node found

/-- Bumping the last node's `used_len` by `len` hands out the `len` bytes from
its old `used_len`, which no earlier region reaches. -/
theorem HandedOut.setLastUsedLen {s : Objstack} {regions : List Region} (handed : HandedOut s regions) (len : Nat) :
    HandedOut (s.setLastUsedLen (s.lastNode.usedLen + len))
      (regions ++ [⟨⟨s.nodes.length - 1, s.lastNode.usedLen⟩, len⟩]) where
  inside r mem := by
    rw [Objstack.getElem?_setLastUsedLen]
    rcases List.mem_append.1 mem with old | new
    · obtain ⟨node, found, fits⟩ := handed.inside r old
      by_cases last : r.ptr.node = s.nodes.length - 1
      · rw [last, s.getElem?_lastNode] at found
        obtain rfl := Option.some.inj found
        exact ⟨_, if_pos last, Nat.le_add_right_of_le fits⟩
      · exact ⟨node, by rw [if_neg last, found], fits⟩
    · obtain rfl := List.mem_singleton.1 new
      exact ⟨_, if_pos rfl, Nat.le_refl _⟩
  disjoint := by
    refine List.pairwise_append.2 ⟨handed.disjoint, List.pairwise_singleton _ _, fun r old fresh mem => ?_⟩
    obtain rfl := List.mem_singleton.1 mem
    obtain ⟨node, found, fits⟩ := handed.inside r old
    by_cases last : r.ptr.node = s.nodes.length - 1
    · rw [last, s.getElem?_lastNode, Option.some.injEq] at found
      exact .inr (.inl (found ▸ fits))
    · exact .inl last
  last_used_le := by
    have before := handed.last_used_le
    rw [Objstack.lastNode_setLastUsedLen, List.map_append, List.sum_append, List.map_singleton, List.sum_singleton]
    exact Nat.add_le_add_right before len

/-- The loop of `objstack_alloc`, for a request of at most `2^63` bytes that
fits in the last node or leaves nodes to append before the one of capacity
`2^63`: it ends at a node with room within `58 - length` turns, keeps the
invariant, and moves no region handed out. -/
theorem objstackAllocLoop_room {len : Nat} (small : len ≤ 2 ^ 63) :
    ∀ (fuel : Nat) (s : Objstack), ObjstackInv s → 58 ≤ fuel + s.nodes.length →
      (s.nodes.length < 57 ∨ s.lastNode.usedLen + len ≤ s.lastNode.len) →
      ∃ s', objstackAllocLoop callocSucceeds len fuel s = some (.room s') ∧ ObjstackInv s' ∧
        (∀ regions, HandedOut s regions → HandedOut s' regions) ∧ s'.lastNode.usedLen + len ≤ s'.lastNode.len
  | 0, _, inv, enough, _ => absurd enough (by have := inv.length_le; omega)
  | fuel + 1, s, inv, enough, fits => by
      have last := inv.lastNode
      have used := last.2
      rw [objstackAllocLoop, inv.sizeSub_lastNode]
      by_cases full : s.lastNode.len - s.lastNode.usedLen < len
      · have room : s.nodes.length < 57 := by omega
        have next : s.nodes.length + 1 < 57 ∨ len ≤ sizeDouble s.lastNode.len := by
          rcases Nat.lt_or_ge (s.nodes.length + 1) 57 with more | top
          · exact .inl more
          · rw [last.1, sizeDouble_nodeCapacity (by omega), show s.nodes.length - 1 + 1 = 56 by omega]
            exact .inr small
        obtain ⟨s', loop, inv', moved, fits'⟩ := objstackAllocLoop_room small fuel _ (objstackInv_append inv room)
          (by simp only [List.length_append, List.length_singleton]; omega)
          (by simpa only [List.length_append, List.length_singleton, Objstack.lastNode_concat, Nat.zero_add] using next)
        rw [if_pos full, objstackAppendNode_callocSucceeds]
        exact ⟨s', loop, inv', fun regions handed => moved regions (handed.append _ rfl), fits'⟩
      · rw [if_neg full]
        exact ⟨s, rfl, inv, fun _ => id, by omega⟩

/-- One call of `objstack_alloc` for at most `SIZE_MAX / 2` bytes whose aligned
size, added to all that was handed out before, stays within `2^63`: it returns
a pointer to a new region of `BT_ALIGN(len, 8)` bytes, and the invariant and the
regions handed out extend to it. -/
theorem objstackAlloc_handsOut {s : Objstack} {regions : List Region} {len fuel : Nat}
    (inv : ObjstackInv s) (handed : HandedOut s regions) (half : len ≤ sizeMax / 2)
    (budget : (regions.map Region.size).sum + btAlign len objstackAlign ≤ 2 ^ 63) (enough : 57 ≤ fuel) :
    ∃ p s', objstackAlloc callocSucceeds fuel s len = some (.ptr p s') ∧ ObjstackInv s' ∧
      HandedOut s' (regions ++ [⟨p, btAlign len objstackAlign⟩]) := by
  have small := (btAlign_bounds half).2
  have fits : s.nodes.length < 57 ∨ s.lastNode.usedLen + btAlign len objstackAlign ≤ s.lastNode.len := by
    rcases Nat.lt_or_ge s.nodes.length 57 with more | top
    · exact .inl more
    · have capacity := inv.lastNode.1
      rw [show s.nodes.length - 1 = 56 by have := inv.length_le; omega] at capacity
      have used := handed.last_used_le
      exact .inr (by rw [capacity]; exact Nat.le_trans (Nat.add_le_add_right used _) budget)
  obtain ⟨s', loop, inv', moved, room⟩ :=
    objstackAllocLoop_room small fuel s inv (by have := s.length_pos; omega) fits
  have bumped : sizeAdd s'.lastNode.usedLen (btAlign len objstackAlign) =
      s'.lastNode.usedLen + btAlign len objstackAlign := by
    have capacity := nodeCapacity_le (k := s'.nodes.length - 1) (by have := inv'.length_le; omega)
    rw [← inv'.lastNode.1] at capacity
    exact sizeAdd_of_lt (by unfold sizeModulus; omega)
  refine ⟨⟨s'.nodes.length - 1, s'.lastNode.usedLen⟩, s'.setLastUsedLen (s'.lastNode.usedLen + btAlign len objstackAlign),
    by simp only [objstackAlloc, loop, Option.map_some', bumped], objstackInv_setLastUsedLen inv' room,
    (moved regions handed).setLastUsedLen _⟩

/-- The regions that calls for `lens` returned at `ptrs`: `BT_ALIGN(len, 8)`
bytes at each. -/
def allocRegions (ptrs : List ObjstackPtr) (lens : List Nat) : List Region :=
  List.zipWith (fun p len => ⟨p, btAlign len objstackAlign⟩) ptrs lens

/-- A run of calls of `objstack_alloc`, each for at most `SIZE_MAX / 2` bytes,
whose aligned sizes and all that was handed out before stay within `2^63`: every
call returns a pointer, and the invariant and the regions handed out extend to
the whole run. -/
theorem objstackAllocAll_handsOut {fuel : Nat} (enough : 57 ≤ fuel) :
    ∀ (lens : List Nat) (s : Objstack) (regions : List Region), ObjstackInv s → HandedOut s regions →
      (∀ len ∈ lens, len ≤ sizeMax / 2) →
      (regions.map Region.size).sum + (lens.map (btAlign · objstackAlign)).sum ≤ 2 ^ 63 →
      ∃ ptrs s', objstackAllocAll callocSucceeds fuel s lens = some (ptrs, s') ∧ ptrs.length = lens.length ∧
        ObjstackInv s' ∧ HandedOut s' (regions ++ allocRegions ptrs lens)
  | [], s, regions, inv, handed, _, _ => ⟨[], s, rfl, rfl, inv, by simpa [allocRegions] using handed⟩
  | len :: lens, s, regions, inv, handed, each, budget => by
      rw [List.map_cons, List.sum_cons, ← Nat.add_assoc] at budget
      obtain ⟨p, s₁, call, inv₁, handed₁⟩ :=
        objstackAlloc_handsOut inv handed (each len (List.mem_cons_self _ _)) (by omega) enough
      obtain ⟨ptrs, s', run, length, inv', handed'⟩ := objstackAllocAll_handsOut enough lens s₁ _ inv₁ handed₁
        (fun len mem => each len (List.mem_cons_of_mem _ mem))
        (by rwa [List.map_append, List.sum_append, List.map_singleton, List.sum_singleton])
      refine ⟨p :: ptrs, s', by simp only [objstackAllocAll, call, run, Option.map_some'], by simp [length], inv', ?_⟩
      simpa [allocRegions] using handed'

/-- Calls of `objstack_alloc` on a new objstack, each for at most
`SIZE_MAX / 2` bytes, their aligned sizes adding up to at most `2^63`
(`SIZE_MAX / 2 + 1`), with `calloc` succeeding: every call's loop ends within
57 turns and returns a pointer; the objstack keeps at most 57 nodes, the `k`-th
of capacity `128 * 2^k` with `used_len ≤ len`; each call's
`BT_ALIGN(len, 8) ≥ len` bytes lie inside one node's data area, and the regions
of different calls share no byte. -/
theorem objstackAllocAll_disjoint_within_total (lens : List Nat) (each : ∀ len ∈ lens, len ≤ sizeMax / 2)
    (total : (lens.map (btAlign · objstackAlign)).sum ≤ 2 ^ 63) (fuel : Nat) (enough : 57 ≤ fuel) :
    objstackCreate callocSucceeds = some createdObjstack ∧
      ∃ ptrs s, objstackAllocAll callocSucceeds fuel createdObjstack lens = some (ptrs, s) ∧
        ptrs.length = lens.length ∧ ObjstackInv s ∧ (∀ len ∈ lens, len ≤ btAlign len objstackAlign) ∧
        (∀ r ∈ allocRegions ptrs lens, ∃ node, s.nodes[r.ptr.node]? = some node ∧ r.ptr.offset + r.size ≤ node.len) ∧
        (allocRegions ptrs lens).Pairwise Region.Disjoint := by
  obtain ⟨ptrs, s, run, length, inv, handed⟩ := objstackAllocAll_handsOut enough lens createdObjstack []
    objstackInv_created ⟨(fun _ none => nomatch none), .nil, Nat.le_refl 0⟩ each (by simpa using total)
  rw [List.nil_append] at handed
  refine ⟨rfl, ptrs, s, run, length, inv, fun len mem => (btAlign_bounds (each len mem)).1, fun r mem => ?_,
    handed.disjoint⟩
  obtain ⟨node, found, fits⟩ := handed.inside r mem
  exact ⟨node, found, Nat.le_trans fits (inv.node_ok _ _ found).2⟩

theorem objstackAlloc_three_small_requests :
    ∃ ptrs s, objstackAllocAll callocSucceeds 57 createdObjstack [3, 200, 16] = some (ptrs, s) ∧
      (allocRegions ptrs [3, 200, 16]).Pairwise Region.Disjoint := by
  obtain ⟨-, ptrs, s, run, -, -, -, -, disjoint⟩ :=
    objstackAllocAll_disjoint_within_total [3, 200, 16] (by decide) (by decide) 57 (Nat.le_refl _)
  exact ⟨ptrs, s, run, disjoint⟩

end Btrace.Ctf
