import Btrace.Ctf.Objstack

set_option autoImplicit false

/- Runs of an objstack in which `calloc` may fail. A program creates an
objstack and calls `objstack_alloc` again and again, each call with its own
`calloc`; a call whose `objstack_append_node` fails returns `NULL` and keeps
the nodes its loop appended before. Over every such run the returned pointers
stay 8-byte aligned, and, while the requests stay within `2^63` bytes in all,
the invariant of the objstack holds, the regions handed out never overlap, and
every next call returns. -/
namespace Btrace.Ctf

/-- The objstack a loop exit leaves. -/
def AllocLoopExit.objstack : AllocLoopExit → Objstack
  | .room s => s
  | .noNode s => s

/-- The objstack a call of `objstack_alloc` leaves. -/
def AllocResult.objstack : AllocResult → Objstack
  | .ptr _ s => s
  | .null s => s

/-- The regions handed out after a call for `len` bytes: one more, of
`BT_ALIGN(len, 8)` bytes, when the call returned a pointer. -/
def AllocResult.regionsAfter (regions : List Region) (len : Nat) : AllocResult → List Region
  | .ptr p _ => regions ++ [⟨p, btAlign len objstackAlign⟩]
  | .null _ => regions

/-- The states a program reaches with an objstack: `objstack_create`, then calls
of `objstack_alloc` that returned, each with its own `calloc` and fuel, indexed
by the lengths asked so far and the regions the calls handed out. -/
inductive ObjstackRun : Objstack → List Nat → List Region → Prop
  | create {calloc : Nat → Bool} {s : Objstack} : objstackCreate calloc = some s → ObjstackRun s [] []
  | call {s : Objstack} {lens : List Nat} {regions : List Region} {calloc : Nat → Bool} {fuel len : Nat}
      {result : AllocResult} : ObjstackRun s lens regions → objstackAlloc calloc fuel s len = some result →
      ObjstackRun result.objstack (lens ++ [len]) (result.regionsAfter regions len)

/-! ## What one call can do -/

theorem objstackCreate_eq_some {calloc : Nat → Bool} {s : Objstack} (created : objstackCreate calloc = some s) :
    s = createdObjstack := by
  unfold objstackCreate at created
  split at created
  · exact (Option.some.inj created).symm
  · cases created

theorem objstackAppendNode_eq_some {calloc : Nat → Bool} {s s' : Objstack}
    (appended : objstackAppendNode calloc s = some s') :
    s' = ⟨s.nodes ++ [⟨sizeDouble s.lastNode.len, 0⟩], by simp⟩ := by
  unfold objstackAppendNode at appended
  split at appended
  · exact (Option.some.inj appended).symm
  · cases appended

/-- A call of `objstack_alloc` hands out the bytes from `used_len` of the node its
loop ends at, or returns `NULL` when its loop ends on a failed `calloc`. -/
theorem objstackAlloc_cases {calloc : Nat → Bool} {fuel len : Nat} {s : Objstack} {result : AllocResult}
    (called : objstackAlloc calloc fuel s len = some result) :
    (∃ s₁, objstackAllocLoop calloc (btAlign len objstackAlign) fuel s = some (.room s₁) ∧
      result = .ptr ⟨s₁.nodes.length - 1, s₁.lastNode.usedLen⟩
        (s₁.setLastUsedLen (sizeAdd s₁.lastNode.usedLen (btAlign len objstackAlign)))) ∨
    ∃ s₁, objstackAllocLoop calloc (btAlign len objstackAlign) fuel s = some (.noNode s₁) ∧ result = .null s₁ := by
  obtain ⟨exit, loop, rfl⟩ := Option.map_eq_some'.1 called
  cases exit with
  | room s₁ => exact .inl ⟨s₁, loop, rfl⟩
  | noNode s₁ => exact .inr ⟨s₁, loop, rfl⟩

/-! ## Alignment, whatever is asked -/

/-- The loop, whatever `calloc` returns, only appends empty nodes. -/
theorem objstackAllocLoop_extends {calloc : Nat → Bool} {len : Nat} :
    ∀ (fuel : Nat) (s : Objstack) (exit : AllocLoopExit), objstackAllocLoop calloc len fuel s = some exit →
      ∃ extra, exit.objstack.nodes = s.nodes ++ extra ∧ ∀ node ∈ extra, node.usedLen = 0
  | 0, _, _, ran => nomatch ran
  | fuel + 1, s, exit, ran => by
      rw [objstackAllocLoop] at ran
      split at ran
      · split at ran
        · rename_i appended
          rw [objstackAppendNode_eq_some appended] at ran
          obtain ⟨extra, nodes, empty⟩ := objstackAllocLoop_extends fuel _ exit ran
          refine ⟨_ :: extra, by rw [nodes, List.append_assoc, List.singleton_append], ?_⟩
          rintro node (_ | ⟨_, later⟩)
          · rfl
          · exact empty node later
        · obtain rfl := Option.some.inj ran
          exact ⟨[], (List.append_nil _).symm, nofun⟩
      · obtain rfl := Option.some.inj ran
        exact ⟨[], (List.append_nil _).symm, nofun⟩

/-- Every `used_len` and every region handed out is a multiple of `OBJSTACK_ALIGN`. -/
structure Aligned (s : Objstack) (regions : List Region) : Prop where
  used : ∀ node ∈ s.nodes, node.usedLen % objstackAlign = 0
  regions : ∀ r ∈ regions, r.ptr.offset % objstackAlign = 0 ∧ r.size % objstackAlign = 0

theorem btAlign_aligned (len : Nat) : btAlign len objstackAlign % objstackAlign = 0 := Nat.mul_mod_left _ _

/-- Adding a multiple of 8 in `size_t` keeps a multiple of 8: `2^64` is one. -/
theorem sizeAdd_aligned {a b : Nat} (first : a % objstackAlign = 0) (second : b % objstackAlign = 0) :
    sizeAdd a b % objstackAlign = 0 := by
  rw [sizeAdd, Nat.mod_mod_of_dvd _ (by decide : objstackAlign ∣ sizeModulus)]
  unfold objstackAlign at *
  omega

theorem Aligned.extend {s s' : Objstack} {regions : List Region} (aligned : Aligned s regions)
    {extra : List ObjstackNode} (nodes : s'.nodes = s.nodes ++ extra) (empty : ∀ node ∈ extra, node.usedLen = 0) :
    Aligned s' regions where
  used node mem := by
    rw [nodes] at mem
    rcases List.mem_append.1 mem with old | new
    · exact aligned.used node old
    · rw [empty node new]
      rfl
  regions := aligned.regions

theorem Aligned.setLastUsedLen {s : Objstack} {regions : List Region} (aligned : Aligned s regions) (len : Nat) :
    Aligned (s.setLastUsedLen (sizeAdd s.lastNode.usedLen (btAlign len objstackAlign)))
      (regions ++ [⟨⟨s.nodes.length - 1, s.lastNode.usedLen⟩, btAlign len objstackAlign⟩]) where
  used node mem := by
    rcases List.mem_or_eq_of_mem_set mem with old | rfl
    · exact aligned.used node old
    · exact sizeAdd_aligned (aligned.used _ (List.getLast_mem _)) (btAlign_aligned len)
  regions r mem := by
    rcases List.mem_append.1 mem with old | new
    · exact aligned.regions r old
    · obtain rfl := List.mem_singleton.1 new
      exact ⟨aligned.used _ (List.getLast_mem _), btAlign_aligned len⟩

/-- Whatever lengths are asked and whatever `calloc` returns, every `used_len`
of an objstack stays a multiple of `OBJSTACK_ALIGN`, and so do the offset and
the size of every region a call returned: `data` being aligned on 8 bytes, every
pointer `objstack_alloc` returns is 8-byte aligned, also once sizes wrap. -/
theorem objstackRun_aligned {s : Objstack} {lens : List Nat} {regions : List Region}
    (run : ObjstackRun s lens regions) : Aligned s regions := by
  induction run with
  | create created =>
      rw [objstackCreate_eq_some created]
      exact ⟨by simp [createdObjstack, objstackAlign], nofun⟩
  | call _ called aligned =>
      rcases objstackAlloc_cases called with ⟨s₁, loop, rfl⟩ | ⟨s₁, loop, rfl⟩
      · obtain ⟨extra, nodes, empty⟩ := objstackAllocLoop_extends _ _ _ loop
        exact (aligned.extend nodes empty).setLastUsedLen _
      · obtain ⟨extra, nodes, empty⟩ := objstackAllocLoop_extends _ _ _ loop
        exact aligned.extend nodes empty

/-! ## Safety and termination while the total fits -/

/-- The loop can end without doubling past the node of capacity `2^63`: there is
a node left to append, or the last node has room for `len` bytes. -/
def LoopFits (s : Objstack) (len : Nat) : Prop :=
  s.nodes.length < 57 ∨ s.lastNode.usedLen + len ≤ s.lastNode.len

theorem ObjstackInv.lastNode_len_le {s : Objstack} (inv : ObjstackInv s) : s.lastNode.len ≤ 2 ^ 63 :=
  inv.lastNode.1.trans_le (nodeCapacity_le (by have := inv.length_le; omega))

/-- After a node is appended the loop still fits: a node is left, or the new one
has capacity `2^63`. -/
theorem loopFits_append {s : Objstack} {len : Nat} (inv : ObjstackInv s) (small : len ≤ 2 ^ 63)
    (room : s.nodes.length < 57) : LoopFits ⟨s.nodes ++ [⟨sizeDouble s.lastNode.len, 0⟩], by simp⟩ len := by
  simp only [LoopFits, List.length_append, List.length_singleton, Objstack.lastNode_concat, Nat.zero_add]
  rcases Nat.lt_or_ge (s.nodes.length + 1) 57 with more | top
  · exact .inl more
  · rw [inv.lastNode.1, sizeDouble_nodeCapacity (by omega), show s.nodes.length - 1 + 1 = 56 by omega]
    exact .inr small

/-- While all handed out and the request stay within `2^63` the loop fits: at
57 nodes the last one has capacity `2^63`. -/
theorem loopFits_of_budget {s : Objstack} {regions : List Region} {len : Nat} (inv : ObjstackInv s)
    (handed : HandedOut s regions) (budget : (regions.map Region.size).sum + len ≤ 2 ^ 63) : LoopFits s len := by
  rcases Nat.lt_or_ge s.nodes.length 57 with more | top
  · exact .inl more
  · have capacity := inv.lastNode.1
    rw [show s.nodes.length - 1 = 56 by have := inv.length_le; omega] at capacity
    have used := handed.last_used_le
    exact .inr (by rw [capacity]; exact Nat.le_trans (Nat.add_le_add_right used _) budget)

/-- The loop of `objstack_alloc`, whatever `calloc` returns, for a request of at
most `2^63` bytes that fits: wherever it ends it keeps the invariant and moves
no region handed out, and the node it ends at with room has room. -/
theorem objstackAllocLoop_keeps {calloc : Nat → Bool} {len : Nat} (small : len ≤ 2 ^ 63) :
    ∀ (fuel : Nat) (s : Objstack) (exit : AllocLoopExit), objstackAllocLoop calloc len fuel s = some exit →
      ObjstackInv s → LoopFits s len →
      ObjstackInv exit.objstack ∧ (∀ regions, HandedOut s regions → HandedOut exit.objstack regions) ∧
        ∀ s₁, exit = .room s₁ → s₁.lastNode.usedLen + len ≤ s₁.lastNode.len
  | 0, _, _, ran, _, _ => nomatch ran
  | fuel + 1, s, exit, ran, inv, fits => by
      have used := inv.lastNode.2
      rw [objstackAllocLoop, inv.sizeSub_lastNode] at ran
      split at ran
      · have room : s.nodes.length < 57 := by unfold LoopFits at fits; omega
        split at ran
        · rename_i appended
          rw [objstackAppendNode_eq_some appended] at ran
          obtain ⟨inv', moved, fits'⟩ :=
            objstackAllocLoop_keeps small fuel _ exit ran (objstackInv_append inv room) (loopFits_append inv small room)
          exact ⟨inv', fun regions handed => moved regions (handed.append _ rfl), fits'⟩
        · obtain rfl := Option.some.inj ran
          exact ⟨inv, fun _ => id, nofun⟩
      · obtain rfl := Option.some.inj ran
        exact ⟨inv, fun _ => id, fun _ same => by cases same; omega⟩

/-- The loop of `objstack_alloc`, whatever `calloc` returns, ends within
`58 - length` turns for a request of at most `2^63` bytes that fits. -/
theorem objstackAllocLoop_ne_none {calloc : Nat → Bool} {len : Nat} (small : len ≤ 2 ^ 63) :
    ∀ (fuel : Nat) (s : Objstack), ObjstackInv s → LoopFits s len → 58 ≤ fuel + s.nodes.length →
      objstackAllocLoop calloc len fuel s ≠ none
  | 0, _, inv, _, enough => absurd enough (by have := inv.length_le; omega)
  | fuel + 1, s, inv, fits, enough => by
      have used := inv.lastNode.2
      rw [objstackAllocLoop, inv.sizeSub_lastNode]
      split
      · have room : s.nodes.length < 57 := by unfold LoopFits at fits; omega
        split
        · rename_i appended
          rw [objstackAppendNode_eq_some appended]
          exact objstackAllocLoop_ne_none small fuel _ (objstackInv_append inv room) (loopFits_append inv small room)
            (by simp only [List.length_append, List.length_singleton]; omega)
        · exact Option.some_ne_none _
      · exact Option.some_ne_none _

/-- One call of `objstack_alloc`, whatever `calloc` returns, for at most
`SIZE_MAX / 2` bytes whose aligned size, added to all handed out before, stays
within `2^63`: the invariant holds after it, and the regions handed out are the
old ones and, when it returned a pointer, the new one. -/
theorem objstackAlloc_keeps {calloc : Nat → Bool} {fuel len : Nat} {s : Objstack} {regions : List Region}
    {result : AllocResult} (inv : ObjstackInv s) (handed : HandedOut s regions) (half : len ≤ sizeMax / 2)
    (budget : (regions.map Region.size).sum + btAlign len objstackAlign ≤ 2 ^ 63)
    (called : objstackAlloc calloc fuel s len = some result) :
    ObjstackInv result.objstack ∧ HandedOut result.objstack (result.regionsAfter regions len) := by
  have small := (btAlign_bounds half).2
  have fits := loopFits_of_budget inv handed budget
  rcases objstackAlloc_cases called with ⟨s₁, loop, rfl⟩ | ⟨s₁, loop, rfl⟩
  · obtain ⟨inv₁, moved, room⟩ := objstackAllocLoop_keeps small _ _ _ loop inv fits
    dsimp only [AllocLoopExit.objstack] at inv₁ moved
    have room := room s₁ rfl
    have bumped : sizeAdd s₁.lastNode.usedLen (btAlign len objstackAlign) =
        s₁.lastNode.usedLen + btAlign len objstackAlign :=
      sizeAdd_of_lt (by have := inv₁.lastNode_len_le; unfold sizeModulus; omega)
    dsimp only [AllocResult.objstack, AllocResult.regionsAfter]
    rw [bumped]
    exact ⟨objstackInv_setLastUsedLen inv₁ room, (moved regions handed).setLastUsedLen _⟩
  · obtain ⟨inv₁, moved, -⟩ := objstackAllocLoop_keeps small _ _ _ loop inv fits
    exact ⟨inv₁, moved regions handed⟩

/-- Over every run whose requests are each at most `SIZE_MAX / 2` bytes and whose
aligned sizes add up to at most `2^63`, whatever `calloc` returned: the invariant
holds, the regions handed out are inside their nodes and disjoint, and they add up
to no more than the aligned sizes asked. -/
theorem ObjstackRun.handsOut {s : Objstack} {lens : List Nat} {regions : List Region}
    (run : ObjstackRun s lens regions) :
    (∀ len ∈ lens, len ≤ sizeMax / 2) → (lens.map (btAlign · objstackAlign)).sum ≤ 2 ^ 63 →
      ObjstackInv s ∧ HandedOut s regions ∧
        (regions.map Region.size).sum ≤ (lens.map (btAlign · objstackAlign)).sum := by
  induction run with
  | create created =>
      intro _ _
      rw [objstackCreate_eq_some created]
      exact ⟨objstackInv_created, ⟨(fun _ none => nomatch none), .nil, Nat.le_refl 0⟩, Nat.le_refl 0⟩
  | @call s lens regions calloc fuel len result _ called before =>
      intro each total
      rw [List.map_append, List.sum_append, List.map_singleton, List.sum_singleton] at total ⊢
      obtain ⟨inv, handed, within⟩ := before (fun len mem => each len (List.mem_append_left _ mem)) (by omega)
      obtain ⟨inv', handed'⟩ :=
        objstackAlloc_keeps inv handed (each len (List.mem_append_right _ (List.mem_singleton_self _))) (by omega) called
      refine ⟨inv', handed', ?_⟩
      cases result with
      | ptr p _ =>
          simp only [AllocResult.regionsAfter, List.map_append, List.sum_append, List.map_singleton, List.sum_singleton]
          omega
      | null _ => exact Nat.le_add_right_of_le within

/-- Over every run of an objstack in which `calloc` may fail, each request at most
`SIZE_MAX / 2` bytes and the aligned sizes asked adding up to at most `2^63`, the
calls that returned `NULL` and the nodes they appended included: the objstack keeps
at most 57 nodes, the `k`-th of capacity `128 * 2^k` with `used_len ≤ len`; every
region a call returned lies inside one node's data area; no two share a byte; and
every next call within that total returns, with a pointer or `NULL`, its loop ending
within 57 turns whatever `calloc` returns. -/
theorem objstackRun_safe_with_failing_calloc {s : Objstack} {lens : List Nat} {regions : List Region}
    (run : ObjstackRun s lens regions) (each : ∀ len ∈ lens, len ≤ sizeMax / 2)
    (total : (lens.map (btAlign · objstackAlign)).sum ≤ 2 ^ 63) :
    ObjstackInv s ∧
      (∀ r ∈ regions, ∃ node, s.nodes[r.ptr.node]? = some node ∧ r.ptr.offset + r.size ≤ node.len) ∧
      regions.Pairwise Region.Disjoint ∧
      ∀ (calloc : Nat → Bool) (fuel len : Nat), len ≤ sizeMax / 2 →
        (lens.map (btAlign · objstackAlign)).sum + btAlign len objstackAlign ≤ 2 ^ 63 → 57 ≤ fuel →
          objstackAlloc calloc fuel s len ≠ none := by
  obtain ⟨inv, handed, within⟩ := run.handsOut each total
  refine ⟨inv, fun r mem => ?_, handed.disjoint, fun calloc fuel len half budget enough ran => ?_⟩
  · obtain ⟨node, found, fits⟩ := handed.inside r mem
    exact ⟨node, found, Nat.le_trans fits (inv.node_ok _ _ found).2⟩
  · rw [objstackAlloc, Option.map_eq_none'] at ran
    exact objstackAllocLoop_ne_none (btAlign_bounds half).2 fuel s inv (loopFits_of_budget inv handed (by omega))
      (by have := s.length_pos; omega) ran

/-- A `calloc` that cannot allocate more than 300 bytes. -/
def callocAtMost300 : Nat → Bool := fun size => decide (size ≤ 300)

/-- The objstack after a request of 600 bytes with `callocAtMost300`: the node
of 256 bytes appended, the one of 512 refused. -/
def twoNodeObjstack : Objstack := ⟨[⟨128, 0⟩, ⟨256, 0⟩], List.cons_ne_nil _ _⟩

/-- And after a request of 16 bytes more. -/
def cappedObjstack : Objstack := ⟨[⟨128, 0⟩, ⟨256, 16⟩], List.cons_ne_nil _ _⟩

/-- A run with `callocAtMost300`: the request of 600 bytes returns `NULL` and
leaves the node of 256 bytes it appended, where the next 16 bytes go. -/
theorem cappedCalloc_run : ObjstackRun cappedObjstack [600, 16] [⟨⟨1, 0⟩, 16⟩] :=
  .call (.call (.create (rfl : objstackCreate callocAtMost300 = some createdObjstack))
      (rfl : objstackAlloc callocAtMost300 57 createdObjstack 600 = some (.null twoNodeObjstack)))
    (rfl : objstackAlloc callocAtMost300 57 twoNodeObjstack 16 = some (.ptr ⟨1, 0⟩ cappedObjstack))

theorem cappedCalloc_run_aligned : Aligned cappedObjstack [⟨⟨1, 0⟩, 16⟩] := objstackRun_aligned cappedCalloc_run

theorem cappedCalloc_run_safe :
    ObjstackInv cappedObjstack ∧ [(⟨⟨1, 0⟩, 16⟩ : Region)].Pairwise Region.Disjoint ∧
      ∀ (calloc : Nat → Bool) (fuel len : Nat), len ≤ sizeMax / 2 → 616 + btAlign len objstackAlign ≤ 2 ^ 63 →
        57 ≤ fuel → objstackAlloc calloc fuel cappedObjstack len ≠ none :=
  let ⟨inv, _, disjoint, returns⟩ := objstackRun_safe_with_failing_calloc cappedCalloc_run (by decide) (by decide)
  ⟨inv, disjoint, returns⟩

end Btrace.Ctf
