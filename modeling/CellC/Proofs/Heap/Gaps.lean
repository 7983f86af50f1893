import CellC.Proofs.Heap.Access

/-!
# Gaps between blocks

Neighbouring blocks are at least as far apart as the widest access is wide. An access that starts
right behind a block, ends right in front of one, or lies across one of its edges therefore meets
bytes that belong to no block, and is refused.

## Main definitions

* `Heap.Denies`: an access is refused for reading and for writing
* `Block.MeetsEdge`: the places of accesses at the edges of a block

## Main results

* `Heap.Run.blocks_lie_apart`: how blocks lie in every heap that requests lead to, and which
  accesses are refused for that reason
-/

namespace CellC

/-- The address range starts where the block ends, ends where the block starts, or lies across one
of the two places. -/
def Block.MeetsEdge (block : Block) (address width : Nat) : Prop :=
  address = block.base.toNat + block.size ∨
  address + width = block.base.toNat ∨
  (address < block.base.toNat ∧ block.base.toNat < address + width) ∨
  (address < block.base.toNat + block.size ∧ block.base.toNat + block.size < address + width)
deriving Decidable

namespace Heap

/-- An access of some width is refused for reading as well as for writing, with the address at which
it was tried. -/
structure Denies (heap : Heap) (address : Address) (width : Nat) : Prop where
  load : heap.load address width = .error (.badAddress address)
  store : ∀ cell, heap.store address width cell = .error (.badAddress address)

theorem denies_of_not_covers {heap : Heap} {address : Address} {width : Nat}
    (uncovered : ¬ heap.Covers address.toNat (accessWidth width)) : heap.Denies address width where
  load := load_of_not_covers uncovered
  store := store_of_not_covers uncovered

theorem accessWidth_pos (width : Nat) : 0 < accessWidth width := by
  unfold accessWidth
  omega

/-- Nothing ends where no block starts. -/
theorem release_eq_none {heap : Heap} {address : Address}
    (vacant : ∀ block ∈ heap.blocks, block.base ≠ address) :
    heap.release address = (none, heap) := by
  have missing : heap.blockAt? address = none := by
    unfold blockAt?
    rw [List.find?_eq_none]
    simpa using vacant
  unfold release
  rw [missing]

namespace Layout

variable {heap : Heap} (layout : heap.Layout)
include layout

theorem base_add_le_of_lt {block other : Block} (member : block ∈ heap.blocks)
    (member' : other ∈ heap.blocks) (order : block.base.toNat < other.base.toNat) :
    block.base.toNat + block.size + 8 ≤ other.base.toNat := by
  rcases layout.eq_or_apart member member' with rfl | before | behind
  · exact absurd order (Nat.lt_irrefl _)
  · exact before
  · omega

/-- Blocks with a byte in common are the same. -/
theorem eq_of_contains {block other : Block} (member : block ∈ heap.blocks)
    (member' : other ∈ heap.blocks) {position : Nat} (contains : block.Contains position 1)
    (contains' : other.Contains position 1) : block = other := by
  obtain ⟨above, within⟩ := contains
  obtain ⟨above', within'⟩ := contains'
  refine (layout.eq_or_apart member member').resolve_right fun apart => ?_
  omega

/-- No access fits between two blocks, because the gap next to an edge is as wide as a cell. -/
theorem not_covers_of_meetsEdge {block : Block} {address width : Nat}
    (member : block ∈ heap.blocks) (some : 0 < width) (short : width ≤ 8)
    (edge : block.MeetsEdge address width) : ¬ heap.Covers address width := by
  rintro ⟨other, member', above, within⟩
  unfold Block.MeetsEdge at edge
  rcases layout.eq_or_apart member member' with rfl | before | behind
  · omega
  · omega
  · omega

theorem not_covers_of_lt_firstAddress {address width : Nat} (low : address < firstAddress) :
    ¬ heap.Covers address width := by
  rintro ⟨block, member, above, -⟩
  have first := layout.first_le block member
  omega

theorem base_ne_of_lt_firstAddress {address : Address} (low : address.toNat < firstAddress) :
    ∀ block ∈ heap.blocks, block.base ≠ address := by
  rintro block member rfl
  exact absurd (layout.first_le block member) (Nat.not_le.mpr low)

end Layout

/-- **Blocks lie apart.** In every heap that requests lead to while the address space lasts, the
next address and all blocks start at multiples of eight, from the first address on; every block ends
eight bytes or more before the next address and before each block above it, so that no two blocks
share a byte. No address below the first one, null included, names a block or can be accessed. An
access of some width, brought between one byte and eight, is refused if it starts where a block
ends, ends where a block starts, or lies across an edge of a block. -/
theorem Run.blocks_lie_apart {past : List (Heap × Request)} {heap : Heap} (run : Run past heap) :
    (8 ∣ heap.next.toNat ∧ firstAddress ≤ heap.next.toNat) ∧
    (∀ block ∈ heap.blocks,
      8 ∣ block.base.toNat ∧ firstAddress ≤ block.base.toNat ∧
      block.base.toNat + block.size + 8 ≤ heap.next.toNat ∧
      (∀ other ∈ heap.blocks, block.base.toNat < other.base.toNat →
        block.base.toNat + block.size + 8 ≤ other.base.toNat) ∧
      (∀ other ∈ heap.blocks, ∀ position, block.Contains position 1 → other.Contains position 1 →
        block = other) ∧
      ∀ address width, block.MeetsEdge address.toNat (accessWidth width) →
        heap.Denies address width) ∧
    ∀ address : Address, address.toNat < firstAddress →
      heap.release address = (none, heap) ∧ ∀ width, heap.Denies address width := by
  have layout := run.layout
  refine ⟨⟨layout.next_aligned, layout.first_le_next⟩, fun block member => ?_,
    fun address low => ?_⟩
  · refine ⟨layout.aligned block member, layout.first_le block member, layout.below block member,
      fun other member' => layout.base_add_le_of_lt member member',
      fun other member' position => layout.eq_of_contains member member',
      fun address width edge => ?_⟩
    exact denies_of_not_covers
      (layout.not_covers_of_meetsEdge member (accessWidth_pos width) (accessWidth_le width) edge)
  · exact ⟨release_eq_none (layout.base_ne_of_lt_firstAddress low),
      fun width => denies_of_not_covers (layout.not_covers_of_lt_firstAddress low)⟩

/-- Blocks of five, zero and sixteen bytes, of which the first one ends again, and a request for a
block that is refused. The block of zero bytes has edges, too: an access across it is refused, and
so is one that ends where it starts. -/
theorem Run.blocks_lie_apart_around_zeroSized :
    let requests : List Request :=
      [.release ⟨0x10000000⟩, .allocate (-1) .explicit, .allocate 16 .array, .allocate 0 .explicit,
        .allocate 5 .explicit]
    ∃ past heap, Run past heap ∧ past.map Prod.snd = requests ∧
      heap.blocks.map (fun block => (block.base.toNat, block.size)) =
        [(0x10000018, 16), (0x10000010, 0)] ∧
      heap.Denies ⟨0x1000000c⟩ 8 ∧ heap.Denies ⟨0x10000008⟩ 8 ∧ heap.Denies ⟨0x10000028⟩ 1 := by
  intro requests
  have run : Run _ _ :=
    .step (.release ⟨0x10000000⟩)
      (.step (.allocate (-1) .explicit)
        (.step (.allocate 16 .array)
          (.step (.allocate 0 .explicit) (.step (.allocate 5 .explicit) .start (by decide))
            (by decide)) (by decide)) (by decide)) trivial
  have blocks := (blocks_lie_apart run).2.1
  refine ⟨_, _, run, rfl, by decide, ?_, ?_, ?_⟩
  · exact (blocks ⟨⟨0x10000010⟩, .explicit, #[]⟩ (by decide)).2.2.2.2.2 _ _ (by decide)
  · exact (blocks ⟨⟨0x10000010⟩, .explicit, #[]⟩ (by decide)).2.2.2.2.2 _ _ (by decide)
  · exact (blocks ⟨⟨0x10000018⟩, .array, Array.replicate 16 0⟩ (by decide)).2.2.2.2.2 _ _
      (by decide)

end Heap

end CellC
