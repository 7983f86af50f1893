import CellC.Proofs.Heap.Layout
import CellC.Proofs.Returns

/-!
# Ownership of arrays

Every live array belongs to exactly one frame, and no block that the program asked for belongs to
any. Popping a frame therefore ends the arrays of its activation and nothing else. That a frame may
still list an array which the program has freed does no harm, because no address is handed out
twice.

## Main definitions

* `Heap.Live`: the live blocks without their contents
* `CallStack.arrays`: the arrays that frames list, frame by frame
* `Heap.ArraysOwned`: the live arrays fit the lists of the frames

## Main results

* `Heap.ArraysOwned.newArray`, `Heap.ArraysOwned.free`, `Heap.ArraysOwned.pop`: what changes blocks
  and frames keeps them fitting together
* `Heap.ArraysOwned.live_pop`: popping a frame spares the blocks that the program asked for
-/

namespace CellC

namespace Heap

/-- A live block starts at `base`, has `size` bytes and was made for `purpose`. -/
def Live (heap : Heap) (base : Address) (size : Nat) (purpose : Purpose) : Prop :=
  ∃ block ∈ heap.blocks, block.base = base ∧ block.size = size ∧ block.purpose = purpose

variable {heap : Heap}

/-- The blocks that are left are the live ones that were not taken out. -/
theorem live_removeAll {bases : List Address} {base : Address} {size : Nat}
    {purpose : Purpose} :
    (heap.removeAll bases).Live base size purpose ↔ heap.Live base size purpose ∧ base ∉ bases := by
  unfold Live removeAll
  simp only [List.mem_filter, decide_eq_true_eq]
  constructor
  · rintro ⟨block, ⟨member, spared⟩, rfl, rfl, rfl⟩
    exact ⟨⟨block, member, rfl, rfl, rfl⟩, spared⟩
  · rintro ⟨⟨block, member, rfl, rfl, rfl⟩, spared⟩
    exact ⟨block, ⟨member, spared⟩, rfl, rfl, rfl⟩

/-- Taking out the block at an address leaves all others. -/
theorem live_remove {address : Address} {base : Address} {size : Nat}
    {purpose : Purpose} :
    (heap.remove address).Live base size purpose ↔
      heap.Live base size purpose ∧ base ≠ address := by
  have single : heap.remove address = heap.removeAll [address] := by
    rw [removeAll_cons, removeAll_nil]
  rw [single, live_removeAll, List.mem_singleton]

/-- Writing over bytes leaves the blocks where they are. -/
theorem live_write {address : Address} {start : Nat} {new : List UInt8} {base : Address}
    {size : Nat} {purpose : Purpose} :
    (heap.write address start new).Live base size purpose ↔ heap.Live base size purpose := by
  unfold Live write
  dsimp only
  induction heap.blocks with
  | nil => rfl
  | cons block blocks ih =>
    rw [overlayAt]
    split
    · simp [Block.size]
    · simp only [List.mem_cons, or_and_right, exists_or, exists_eq_left, ih]

namespace Layout

variable (layout : heap.Layout)
include layout

/-- A live block lies below the next free address. -/
theorem lt_next {base : Address} {size : Nat} {purpose : Purpose}
    (live : heap.Live base size purpose) : base.toNat < heap.next.toNat := by
  obtain ⟨block, member, rfl, -, -⟩ := live
  have below := layout.below block member
  omega

/-- An allocation adds one block and leaves the others live. -/
theorem live_allocate {cell : Cell} {reason : Purpose} {start : Address} {after : Heap}
    (made : heap.allocate cell reason = .ok (start, after)) (base : Address) (size : Nat)
    (purpose : Purpose) :
    after.Live base size purpose ↔ heap.Live base size purpose ∨
      base = start ∧ size = cell.toInt.toNat ∧ purpose = reason := by
  obtain ⟨-, -, rfl, rfl⟩ := layout.allocate_eq made
  unfold Live
  simp only [List.mem_cons, or_and_right, exists_or, exists_eq_left, Block.size,
    Array.size_replicate]
  rw [or_comm]
  exact or_congr Iff.rfl (by simp only [eq_comm])

/-- Nothing lives from the next address on. -/
theorem not_live {base : Address} (beyond : heap.next.toNat ≤ base.toNat) (size : Nat)
    (purpose : Purpose) : ¬ heap.Live base size purpose := by
  intro live
  have below := layout.lt_next live
  omega

/-- Below the next free address, an allocation changes no block. -/
theorem live_allocate_of_lt {cell : Cell} {reason : Purpose} {start : Address} {after : Heap}
    (made : heap.allocate cell reason = .ok (start, after)) {base : Address}
    (below : base.toNat < heap.next.toNat) (size : Nat) (purpose : Purpose) :
    after.Live base size purpose ↔ heap.Live base size purpose := by
  rw [layout.live_allocate made, or_iff_left]
  rintro ⟨rfl, -⟩
  rw [(next_eq_of_allocate made).1] at below
  exact Nat.lt_irrefl _ below

/-- From the next free address on, the new block is the only one. -/
theorem live_allocate_of_le {cell : Cell} {reason : Purpose} {start : Address} {after : Heap}
    (made : heap.allocate cell reason = .ok (start, after)) {base : Address}
    (beyond : heap.next.toNat ≤ base.toNat) (size : Nat) (purpose : Purpose) :
    after.Live base size purpose ↔
      base = start ∧ size = cell.toInt.toNat ∧ purpose = reason := by
  rw [layout.live_allocate made, or_iff_right (layout.not_live beyond size purpose)]

end Layout

end Heap

namespace CallStack

/-- The addresses of the arrays that the frames list, the innermost frame first. -/
def arrays (stack : CallStack) : List Address :=
  stack.calls.flatMap Frame.arrays ++ stack.root.arrays

/-- An update that keeps the arrays of frames keeps the arrays of the stack. -/
theorem arrays_modifyTop {f : Frame → Frame} (same : ∀ frame, (f frame).arrays = frame.arrays)
    (stack : CallStack) : (stack.modifyTop f).arrays = stack.arrays := by
  obtain ⟨root, _ | ⟨frame, calls⟩⟩ := stack <;> simp [arrays, modifyTop, same]

theorem arrays_modifyRoot {f : Frame → Frame} (same : ∀ frame, (f frame).arrays = frame.arrays)
    (stack : CallStack) : (stack.modifyRoot f).arrays = stack.arrays := by
  simp [arrays, modifyRoot, same]

/-- Adopting a block adds it to the arrays of the stack. -/
theorem arrays_adopt (base : Address) (stack : CallStack) :
    (stack.modifyTop (·.adopt base)).arrays.Perm (base :: stack.arrays) := by
  obtain ⟨root, _ | ⟨frame, calls⟩⟩ := stack
  · exact List.perm_append_singleton base root.arrays
  · simp [arrays, modifyTop, Frame.adopt]

/-- The arrays of the stack are those of the innermost call and those below it. -/
theorem arrays_of_calls {stack : CallStack} {frame : Frame} {calls : List Frame}
    (found : stack.calls = frame :: calls) :
    stack.arrays = frame.arrays ++ ({ stack with calls } : CallStack).arrays := by
  simp [arrays, found]

end CallStack

namespace Heap

/-- The address space has lasted so far: the next address is the last one exactly if an allocation
reached the end. -/
def Roomy (heap : Heap) : Prop := heap.next.toNat < maxWord

theorem next_le_of_allocate {heap after : Heap} {size : Cell} {purpose : Purpose} {base : Address}
    (made : heap.allocate size purpose = .ok (base, after)) :
    heap.next.toNat ≤ after.next.toNat := by
  rw [(next_eq_of_allocate made).2]
  exact le_following

/-- As long as addresses last, an allocation moves the next free address. -/
theorem next_lt_of_allocate {heap after : Heap} {size : Cell} {purpose : Purpose} {base : Address}
    (made : heap.allocate size purpose = .ok (base, after)) (roomy : after.Roomy) :
    heap.next.toNat < after.next.toNat := by
  unfold Roomy at roomy
  rw [(next_eq_of_allocate made).2] at roomy ⊢
  rw [toNat_following (toNat_following_lt_iff.mp roomy)]
  omega

/-- Every live array is listed exactly once, and no block that the program asked for is listed.
Listed addresses lie below the next one, so they are not handed out again. -/
structure ArraysOwned (heap : Heap) (arrays : List Address) : Prop where
  layout : heap.Layout
  listed : ∀ base size, heap.Live base size .array → base ∈ arrays
  once : arrays.Nodup
  unlisted : ∀ base size, heap.Live base size .explicit → base ∉ arrays
  old : ∀ base ∈ arrays, base.toNat < heap.next.toNat

namespace ArraysOwned

theorem empty : ArraysOwned {} [] where
  layout := .empty
  listed base size live := by obtain ⟨block, member, -⟩ := live; cases member
  once := .nil
  unlisted base size live := List.not_mem_nil
  old base member := by cases member

variable {heap : Heap} {arrays : List Address} (owned : heap.ArraysOwned arrays)
include owned

/-- The order in which frames list their arrays does not matter. -/
theorem perm {others : List Address} (same : others.Perm arrays) : heap.ArraysOwned others where
  layout := owned.layout
  listed base size live := same.mem_iff.mpr (owned.listed base size live)
  once := same.nodup_iff.mpr owned.once
  unlisted base size live := mt same.mem_iff.mp (owned.unlisted base size live)
  old base member := owned.old base (same.mem_iff.mp member)

/-- A store changes the owner of no array. -/
theorem store {address : Address} {width : Nat} {cell : Cell} {after : Heap}
    (stored : heap.store address width cell = .ok after) : after.ArraysOwned arrays := by
  have layout := owned.layout.store stored
  obtain ⟨block, start, -, rfl⟩ := store_eq_ok stored
  exact {
    layout
    listed := fun base size live => owned.listed base size (live_write.mp live)
    once := owned.once
    unlisted := fun base size live => owned.unlisted base size (live_write.mp live)
    old := owned.old }

/-- The address of a new block is listed by no frame. -/
theorem next_not_mem : heap.next ∉ arrays :=
  fun member => absurd (owned.old _ member) (Nat.lt_irrefl _)

/-- A new array belongs to the frame that adopts it. -/
theorem newArray {cell : Cell} {base : Address} {after : Heap}
    (made : heap.allocate cell .array = .ok (base, after)) (roomy : after.Roomy) :
    after.ArraysOwned (base :: arrays) := by
  have live := owned.layout.live_allocate made
  have next := next_lt_of_allocate made roomy
  obtain ⟨rfl, -⟩ := next_eq_of_allocate made
  refine ⟨owned.layout.allocate made roomy, fun base size alive => ?_, ?_,
    fun base size alive => ?_, fun base member => ?_⟩
  · rcases (live base size _).mp alive with older | ⟨rfl, -⟩
    · exact List.mem_cons_of_mem _ (owned.listed base size older)
    · exact List.mem_cons_self
  · exact List.nodup_cons.mpr ⟨owned.next_not_mem, owned.once⟩
  · rcases (live base size _).mp alive with older | ⟨-, -, other⟩
    · have below := owned.layout.lt_next older
      rw [List.mem_cons, not_or]
      refine ⟨?_, owned.unlisted base size older⟩
      rintro rfl
      exact Nat.lt_irrefl _ below
    · cases other
  · rcases List.mem_cons.mp member with rfl | older
    · exact next
    · exact Nat.lt_trans (owned.old base older) next

/-- An explicit block belongs to no frame. -/
theorem newBlock {cell : Cell} {base : Address} {after : Heap}
    (made : heap.allocate cell .explicit = .ok (base, after)) (roomy : after.Roomy) :
    after.ArraysOwned arrays := by
  have live := owned.layout.live_allocate made
  have next := next_lt_of_allocate made roomy
  obtain ⟨rfl, -⟩ := next_eq_of_allocate made
  refine ⟨owned.layout.allocate made roomy, fun base size alive => ?_, owned.once,
    fun base size alive => ?_, fun base member => Nat.lt_trans (owned.old base member) next⟩
  · rcases (live base size _).mp alive with older | ⟨-, -, other⟩
    · exact owned.listed base size older
    · cases other
  · rcases (live base size _).mp alive with older | ⟨rfl, -⟩
    · exact owned.unlisted base size older
    · exact owned.next_not_mem

/-- Freeing an array leaves its address with the frame that lists it. -/
theorem free (address : Address) : (heap.remove address).ArraysOwned arrays where
  layout := owned.layout.remove address
  listed base size live := owned.listed base size (live_remove.mp live).1
  once := owned.once
  unlisted base size live := owned.unlisted base size (live_remove.mp live).1
  old := owned.old

omit owned in
/-- Popping a frame ends the arrays that it lists. The other frames list all that are left. -/
theorem pop {mine others : List Address} (owned : heap.ArraysOwned (mine ++ others)) :
    (heap.removeAll mine).ArraysOwned others where
  layout := owned.layout.removeAll mine
  listed base size live := by
    obtain ⟨alive, spared⟩ := live_removeAll.mp live
    exact (List.mem_append.mp (owned.listed base size alive)).resolve_left spared
  once := (List.nodup_append.mp owned.once).2.1
  unlisted base size live member :=
    owned.unlisted base size (live_removeAll.mp live).1 (List.mem_append_right _ member)
  old base member := owned.old base (List.mem_append_right _ member)

omit owned in
/-- Popping a frame spares the blocks that the program asked for. -/
theorem live_pop {mine others : List Address} (owned : heap.ArraysOwned (mine ++ others))
    (base : Address) (size : Nat) :
    (heap.removeAll mine).Live base size .explicit ↔ heap.Live base size .explicit := by
  rw [live_removeAll]
  refine and_iff_left_of_imp fun live member => ?_
  exact owned.unlisted base size live (List.mem_append_left _ member)

end ArraysOwned

end Heap

end CellC
