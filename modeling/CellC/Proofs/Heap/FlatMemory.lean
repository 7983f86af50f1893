import CellC.Proofs.Heap.Access
import Mathlib.Tactic.Convert

/-!
# The heap as a flat memory

The bytes of the live blocks are those of a memory without blocks, in which each position holds what
a request wrote there last. The blocks only decide which accesses are granted.

## Main definitions

* `Heap.written?`: the byte that a request writes at a position
* `Heap.lastWritten`: the memory after a sequence of requests
* `Heap.Reflects`: the bytes of the live blocks are those of a memory

## Main results

* `Heap.Run.reflects`: every heap that requests lead to reflects the bytes written last
* `Heap.Run.refines_flat_memory`: which accesses are granted, what they read, and what they write
-/

namespace CellC

namespace Heap

/-- The byte that a request writes at a position, if it is granted and writes there. A store writes
the bytes of its cell and an allocation writes zeros. -/
def written? (heap : Heap) (position : Nat) : Request → Option UInt8
  | .allocate size purpose =>
    match heap.allocate size purpose with
    | .ok (base, _) =>
      if base.toNat ≤ position ∧ position < base.toNat + size.toInt.toNat then some 0 else none
    | .error _ => none
  | .store address width cell =>
    match heap.store address width cell with
    | .ok _ =>
      if address.toNat ≤ position ∧ position < address.toNat + accessWidth width then
        some (cell.byte (position - address.toNat))
      else none
    | .error _ => none
  | .release _ | .load _ _ => none

/-- The byte that the latest request to write at a position wrote there, or zero if there was no
such request. -/
def lastWritten : List (Heap × Request) → Nat → UInt8
  | [], _ => 0
  | (heap, request) :: past, position =>
    (heap.written? position request).getD (lastWritten past position)

/-- The bytes of the live blocks are those of the memory. -/
def Reflects (heap : Heap) (memory : Nat → UInt8) : Prop :=
  ∀ block ∈ heap.blocks, ∀ i < block.size, block.bytes[i]? = some (memory (block.base.toNat + i))

namespace Reflects

variable {heap : Heap} {memory : Nat → UInt8}

/-- A load within a live block reads the addressed bytes of the memory. -/
theorem load_of_covers (reflects : heap.Reflects memory) (layout : heap.Layout) {address : Address}
    {width : Nat} (covers : heap.Covers address.toNat (accessWidth width)) :
    heap.load address width = .ok (Cell.ofBytes
      ((List.range (accessWidth width)).map fun i => memory (address.toNat + i))) := by
  obtain ⟨block, member, contains⟩ := covers
  unfold load
  rw [layout.find_of_contains member contains]
  obtain ⟨above, within⟩ := contains
  show Except.ok (Cell.ofBytes _) = _
  congr 2
  apply List.ext_getElem?
  intro i
  rw [Array.getElem?_toList, Array.getElem?_extract, List.getElem?_map]
  rcases Nat.lt_or_ge i (accessWidth width) with inside | outside
  · have addressed := reflects block member (address.toNat - block.base.toNat + i) (by omega)
    unfold Block.size at within
    rw [if_pos (by omega), addressed, List.getElem?_range inside, Option.map_some]
    congr 2
    omega
  · rw [if_neg (by omega), List.getElem?_eq_none (by simpa using outside), Option.map_none]

theorem sublist (reflects : heap.Reflects memory) {blocks : List Block}
    (sub : blocks.Sublist heap.blocks) : Reflects { heap with blocks } memory :=
  fun block member => reflects block (sub.subset member)

theorem overwritten (reflects : heap.Reflects memory) (address width : Nat) (cell : Cell) :
    (heap.overwritten address width cell).Reflects fun position =>
      if address ≤ position ∧ position < address + width then cell.byte (position - address)
      else memory position := by
  intro block changed i inside
  obtain ⟨old, member, rfl⟩ := List.mem_map.mp changed
  rw [Block.size_overwritten] at inside
  rw [Block.getElem?_overwritten, reflects old member i inside, Block.base_overwritten]
  simp only [inside, and_true, apply_ite some]

/-- A request leads from a heap that reflects a memory to one that reflects the memory with what the
request wrote. -/
theorem after (reflects : heap.Reflects memory) (layout : heap.Layout) (request : Request) :
    (heap.after request).Reflects fun position =>
      (heap.written? position request).getD (memory position) := by
  cases request with
  | allocate size purpose =>
    unfold Heap.after written?
    dsimp only
    cases made : heap.allocate size purpose with
    | error fault => exact reflects
    | ok answer =>
      obtain ⟨base, next⟩ := answer
      obtain ⟨low, -, rfl, rfl⟩ := layout.allocate_eq made
      rintro block (_ | ⟨_, member⟩) i inside
      · -- All bytes of the new block are zero, which is what the allocation wrote.
        have inside : i < size.toInt.toNat := by simpa [Block.size] using inside
        dsimp only
        rw [if_pos (by omega), Array.getElem?_replicate, if_pos inside, Option.getD_some]
      · -- The older blocks end before the new one starts.
        have below := layout.below block member
        dsimp only
        rw [if_neg (by omega), Option.getD_none]
        exact reflects block member i inside
  | release address =>
    unfold Heap.after Heap.release written?
    dsimp only
    split
    · exact reflects.sublist List.filter_sublist
    · exact reflects
  | load address width => exact reflects
  | store address width cell =>
    unfold Heap.after written?
    dsimp only
    by_cases covers : heap.Covers address.toNat (accessWidth width)
    · -- The addressed bytes change alike in the heap and in the memory.
      rw [layout.store_of_covers covers]
      have written := reflects.overwritten address.toNat (accessWidth width) cell
      convert written using 2 with position
      dsimp only
      split <;> rfl
    · rw [store_of_not_covers covers]
      exact reflects

end Reflects

namespace Run

variable {past : List (Heap × Request)} {heap : Heap}

/-- Every heap that requests lead to reflects what they wrote last. -/
theorem reflects (run : Run past heap) : heap.Reflects (lastWritten past) := by
  induction run with
  | start => exact fun block member => by cases member
  | step request earlier _ ih => exact ih.after earlier.layout request

/-- **The heap is a flat memory.** An access of some width, brought between one byte and eight, is
granted if one live block contains all of its bytes, and else fails with the address at which it was
tried. A load yields the number with sign that the bytes written last spell, the lowest first. A
store writes over the addressed bytes alone. -/
theorem refines_flat_memory (run : Run past heap) (address : Address) (width : Nat) :
    (heap.Covers address.toNat (accessWidth width) →
      (∃ cell, heap.load address width = .ok cell ∧
        cell.toInt = (natOfBytes ((List.range (accessWidth width)).map fun i =>
          lastWritten past (address.toNat + i)) : Int).bmod (byteRange (accessWidth width))) ∧
      ∀ cell, heap.store address width cell =
        .ok (heap.overwritten address.toNat (accessWidth width) cell)) ∧
    (¬ heap.Covers address.toNat (accessWidth width) →
      heap.load address width = .error (.badAddress address) ∧
      ∀ cell, heap.store address width cell = .error (.badAddress address) ∧
        heap.after (.store address width cell) = heap) := by
  constructor
  · intro covers
    refine ⟨⟨_, run.reflects.load_of_covers run.layout covers, ?_⟩, fun cell => ?_⟩
    · rw [Cell.toInt_ofBytes]
      · rw [List.length_map, List.length_range]
      · simpa using accessWidth_le width
    · exact run.layout.store_of_covers covers cell
  · intro uncovered
    refine ⟨load_of_not_covers uncovered, fun cell => ?_⟩
    have refused := store_of_not_covers uncovered cell
    refine ⟨refused, ?_⟩
    unfold after
    dsimp only
    rw [refused]

/-- Two stores that overlap in a block of eight bytes, a load that meets both of them and bytes that
neither wrote, and a store that reaches beyond the block. -/
theorem refines_flat_memory_overlapping_stores :
    let base : Address := ⟨0x10000000⟩
    let stored : List Request :=
      [.store (base.offset 2) 4 (-2), .store (base.offset 1) 2 0x7766, .allocate 8 .explicit]
    ∃ past heap, Run past heap ∧ past.map Prod.snd = stored ∧
      (∃ cell, heap.load base 8 = .ok cell ∧ cell.toInt = 0x0000fffffffe6600) ∧
      heap.store (base.offset 6) 4 0 = .error (.badAddress (base.offset 6)) := by
  intro base stored
  have run : Run _ _ :=
    .step (.store (base.offset 2) 4 (-2))
      (.step (.store (base.offset 1) 2 0x7766) (.step (.allocate 8 .explicit) .start (by decide))
        trivial) trivial
  refine ⟨_, _, run, rfl, ?_, ?_⟩
  · obtain ⟨⟨cell, loaded, value⟩, -⟩ := (refines_flat_memory run base 8).1 (by decide)
    exact ⟨cell, loaded, value.trans (by decide)⟩
  · exact (((refines_flat_memory run (base.offset 6) 4).2 (by decide)).2 0).1

end Run

end Heap

end CellC
