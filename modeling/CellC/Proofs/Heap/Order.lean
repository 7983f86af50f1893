import CellC.Proofs.Heap.Access
import Mathlib.Data.List.Nodup

/-!
# The order of blocks

However much has been allocated, the live blocks lie in descending order, and none reaches into one
above it unless that one was placed at the last address, when no room was left. So an access to a
block that ends before the last address meets that block alone, and what is read there is what was
written there, whatever happened to the rest of the address space.

## Main definitions

* `Heap.Ordered`: the order of the live blocks
* `Block.read`, `Block.written`: the bytes of one block

## Main results

* `Heap.Ordered.after`: every request keeps the order, with or without room
* `Heap.Ordered.load_of_contains`, `Heap.Ordered.store_of_contains`: accesses within one block
* `Block.read_written_self`, `Block.read_written_apart`: reading what was written
-/

namespace CellC

namespace Heap

/-- The live blocks lie in descending order. A block ends at or below every block above it and the
next address, except for what was placed at the last address. -/
structure Ordered (heap : Heap) : Prop where
  below : ∀ block ∈ heap.blocks,
    block.base.toNat + block.size ≤ heap.next.toNat ∨ heap.next.toNat = maxWord
  descending : heap.blocks.Pairwise fun young old =>
    old.base.toNat < young.base.toNat ∧
      (old.base.toNat + old.size ≤ young.base.toNat ∨ young.base.toNat = maxWord)

namespace Ordered

variable {heap : Heap}

theorem empty : Ordered {} where
  below := by simp
  descending := .nil

theorem remove (ordered : heap.Ordered) (base : Address) : (heap.remove base).Ordered where
  below block member := ordered.below block (List.mem_filter.mp member).1
  descending := ordered.descending.sublist List.filter_sublist

theorem nodup (ordered : heap.Ordered) : (heap.blocks.map Block.base).Nodup := by
  rw [List.Nodup, List.pairwise_map]
  refine ordered.descending.imp fun apart same => ?_
  rw [same] at apart
  exact absurd apart.1 (Nat.lt_irrefl _)

theorem allocate (ordered : heap.Ordered) {size : Cell} {purpose : Purpose} {base : Address}
    {after : Heap} (made : heap.allocate size purpose = .ok (base, after)) : after.Ordered := by
  have spared {block : Block} (member : block ∈ heap.blocks.filter (·.base ≠ heap.next)) :
      block ∈ heap.blocks ∧ block.base ≠ heap.next := by
    simpa using List.mem_filter.mp member
  unfold Heap.allocate at made
  split at made
  · cases made
    constructor
    · intro block member
      dsimp only
      by_cases room : heap.next.toNat + size.toInt.toNat + 15 ≤ maxWord
      · rw [toNat_following room]
        rcases List.mem_cons.mp member with rfl | old
        · left
          simp only [Block.size, Array.size_replicate]
          omega
        · rcases ordered.below block (spared old).1 with below | last
          · left
            omega
          · omega
      · exact .inr (toNat_following_of_lt (by omega))
    · refine .cons (fun block member => ?_) (ordered.descending.sublist List.filter_sublist)
      obtain ⟨member, other⟩ := spared member
      have distinct : block.base.toNat ≠ heap.next.toNat := fun same =>
        other (congrArg Address.mk (UInt64.toNat_inj.mp same))
      have within := block.base.toNat_le_maxWord
      dsimp only
      rcases ordered.below block member with below | last
      · exact ⟨by omega, .inl below⟩
      · exact ⟨by omega, .inr last⟩
  · cases made

/-- Writing over a block is a change of that block alone. -/
theorem write_eq (ordered : heap.Ordered) (base : Address) (start : Nat) (new : List UInt8) :
    heap.write base start new = { heap with
      blocks := heap.blocks.map fun block =>
        if block.base = base then { block with bytes := overlay block.bytes start new }
        else block } := by
  unfold write
  rw [overlayAt_eq_map ordered.nodup]

theorem write (ordered : heap.Ordered) (base : Address) (start : Nat) (new : List UInt8) :
    (heap.write base start new).Ordered := by
  have place (block : Block) :
      (if block.base = base then { block with bytes := overlay block.bytes start new }
        else block).base = block.base := by
    split <;> rfl
  have extent (block : Block) :
      (if block.base = base then { block with bytes := overlay block.bytes start new }
        else block).size = block.size := by
    unfold Block.size
    split
    · exact size_overlay _ _ _
    · rfl
  rw [ordered.write_eq]
  constructor
  · simpa only [List.forall_mem_map, place, extent] using ordered.below
  · simpa only [List.pairwise_map, place, extent] using ordered.descending

theorem store (ordered : heap.Ordered) {address : Address} {width : Nat} {cell : Cell}
    {after : Heap} (stored : heap.store address width cell = .ok after) : after.Ordered := by
  obtain ⟨block, start, -, rfl⟩ := store_eq_ok stored
  exact ordered.write _ _ _

/-- Every request keeps the order, whether the address space lasts or not. -/
theorem after (ordered : heap.Ordered) (request : Request) : (heap.after request).Ordered := by
  cases request with
  | allocate size purpose =>
    unfold Heap.after
    dsimp only
    cases made : heap.allocate size purpose with
    | error fault => exact ordered
    | ok answer => exact ordered.allocate made
  | release address =>
    unfold Heap.after Heap.release
    dsimp only
    split
    · exact ordered.remove address
    · exact ordered
  | load address width => exact ordered
  | store address width cell =>
    unfold Heap.after
    dsimp only
    cases stored : heap.store address width cell with
    | error fault => exact ordered
    | ok answer => exact ordered.store stored

end Ordered

end Heap

/-! ### The bytes of one block -/

namespace Block

/-- The cell that `width` bytes of a block stand for, from the given one on. -/
def read (block : Block) (start width : Nat) : Cell :=
  Cell.ofBytes (block.bytes.extract start (start + width)).toList

/-- The block with bytes written over it, from the given one on. -/
def written (block : Block) (start : Nat) (new : List UInt8) : Block :=
  { block with bytes := Heap.overlay block.bytes start new }

@[simp] theorem size_written (block : Block) (start : Nat) (new : List UInt8) :
    (block.written start new).size = block.size := Heap.size_overlay _ _ _

variable {block : Block} {start : Nat}

/-- What was written is read again, as far as its bytes tell. -/
theorem read_written_self {cell : Cell} {width : Nat} (fits : start + width ≤ block.size) :
    (block.written start (cell.toBytes width)).read start width =
      Cell.ofBytes (cell.toBytes width) := by
  unfold read written
  congr 1
  apply List.ext_getElem?
  intro i
  have within : start + (cell.toBytes width).length ≤ block.bytes.size := by
    rwa [Cell.length_toBytes]
  rw [Array.getElem?_toList, Array.getElem?_extract, Heap.size_overlay,
    Heap.getElem?_overlay within, Cell.length_toBytes]
  unfold size at fits
  rcases Nat.lt_or_ge i width with inside | outside
  · rw [if_pos (by omega), if_pos (by omega), Nat.add_sub_cancel_left]
  · rw [if_neg (by omega), Cell.getElem?_toBytes, if_neg (by omega)]

/-- What lies apart from what was written is read as before. -/
theorem read_written_apart {new : List UInt8} {other width : Nat}
    (fits : start + new.length ≤ block.size)
    (apart : start + new.length ≤ other ∨ other + width ≤ start) :
    (block.written start new).read other width = block.read other width := by
  unfold read written
  congr 1
  apply List.ext_getElem?
  intro i
  rw [Array.getElem?_toList, Array.getElem?_toList, Array.getElem?_extract,
    Array.getElem?_extract, Heap.size_overlay, Heap.getElem?_overlay fits]
  rcases Nat.lt_or_ge i width with inside | outside
  · rw [if_neg (by omega : ¬ (start ≤ other + i ∧ other + i < start + new.length))]
  · rw [if_neg (by omega), if_neg (by omega)]

theorem natOfBytes_replicate_zero (count : Nat) : natOfBytes (List.replicate count 0) = 0 := by
  induction count with
  | zero => rfl
  | succ count ih => simp [List.replicate_succ, natOfBytes, ih]

/-- A new block reads as zero everywhere. -/
theorem read_replicate_zero (base : Address) (purpose : Purpose) (count start width : Nat) :
    read ⟨base, purpose, Array.replicate count 0⟩ start width = 0 := by
  unfold read Cell.ofBytes
  dsimp only
  rw [Array.extract_replicate, Array.toList_replicate, natOfBytes_replicate_zero]
  simp

end Block

namespace Cell

theorem toInt_eq_bmod (cell : Cell) :
    cell.toInt = (cell.toUInt64.toNat : Int).bmod (byteRange 8) := by
  rw [← Int64.toInt_toBitVec, BitVec.toInt_eq_toNat_bmod]
  rfl

/-- All eight bytes of a cell stand for the cell. -/
theorem ofBytes_toBytes_eight (cell : Cell) : Cell.ofBytes (cell.toBytes 8) = cell := by
  apply Int64.toInt_inj.mp
  rw [toInt_ofBytes (by simp), length_toBytes, toBytes, natOfBytes_bytesOfNat,
    toInt_eq_bmod, Int.natCast_emod]
  exact Int.emod_bmod _ _

/-- The lowest byte of a cell stands for its character. -/
theorem ofBytes_toBytes_one (cell : Cell) :
    Cell.ofBytes (cell.toBytes 1) = cell.toInt8.toInt64 := by
  apply Int64.toInt_inj.mp
  rw [toInt_ofBytes (by simp), length_toBytes, toBytes, natOfBytes_bytesOfNat,
    Int8.toInt_toInt64, Int64.toInt_toInt8, toInt_eq_bmod, Int.natCast_emod, Int.emod_bmod]
  exact (Int.bmod_bmod_of_dvd (by decide)).symm

end Cell

/-! ### Accesses within one block -/

theorem Heap.mem_of_blockAt? {heap : Heap} {base : Address} {block : Block}
    (found : heap.blockAt? base = some block) : block ∈ heap.blocks ∧ block.base = base :=
  ⟨List.mem_of_find?_eq_some found, by simpa using List.find?_some found⟩

namespace Heap.Ordered

variable {heap : Heap} (ordered : heap.Ordered) {block : Block} (member : block ∈ heap.blocks)
  {address : Address} {width : Nat}
include ordered member

/-- A block is the only one that starts where it starts. -/
theorem blockAt?_of_mem : heap.blockAt? block.base = some block := by
  cases found : heap.blockAt? block.base with
  | none => simpa using List.find?_eq_none.mp found block member
  | some other =>
    obtain ⟨member', same⟩ := mem_of_blockAt? found
    rw [List.inj_on_of_nodup_map ordered.nodup member' member same]

theorem find_of_contains (contains : block.Contains address.toNat width) (some : 0 < width)
    (last : address.toNat < maxWord) :
    heap.find address width = .ok (block, address.toNat - block.base.toNat) := by
  obtain ⟨above, within⟩ := contains
  have chosen : heap.blocks.find? (·.base.toNat ≤ address.toNat) = Option.some block := by
    obtain ⟨young, old, split⟩ := List.append_of_mem member
    have descending := ordered.descending
    rw [split, List.pairwise_append] at descending
    rw [List.find?_eq_some_iff_append]
    refine ⟨by simpa using above, young, old, split, fun other younger => ?_⟩
    -- A block above this one starts behind its end, or at the last address.
    have apart := descending.2.2 other younger block List.mem_cons_self
    have beyond : address.toNat < other.base.toNat := by omega
    simpa using beyond
  unfold find
  rw [chosen]
  dsimp only
  rw [if_pos (by omega)]

/-- A load within a block reads its bytes. -/
theorem load_of_contains (contains : block.Contains address.toNat (accessWidth width))
    (last : address.toNat < maxWord) :
    heap.load address width =
      .ok (block.read (address.toNat - block.base.toNat) (accessWidth width)) := by
  unfold load
  rw [ordered.find_of_contains member contains (by unfold accessWidth; omega) last]
  rfl

/-- A store within a block writes its bytes. -/
theorem store_of_contains (contains : block.Contains address.toNat (accessWidth width))
    (last : address.toNat < maxWord) (cell : Cell) :
    ∃ after, heap.store address width cell = .ok after ∧
      block.written (address.toNat - block.base.toNat) (cell.toBytes (accessWidth width)) ∈
        after.blocks := by
  have found := ordered.find_of_contains member contains (by unfold accessWidth; omega) last
  refine ⟨_, store_of_find found cell, ?_⟩
  rw [ordered.write_eq]
  refine List.mem_map.mpr ⟨block, member, ?_⟩
  rw [if_pos rfl]
  rfl

end Heap.Ordered

end CellC
