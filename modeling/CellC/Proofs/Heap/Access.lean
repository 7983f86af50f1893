import CellC.Proofs.Heap.Layout
import Mathlib.Logic.Basic

/-!
# Access to the bytes of the heap

An access is granted exactly if one live block contains all of its bytes, although only the block
with the greatest base at or below the address is looked at. What is then read or written is
described here byte by byte.

## Main definitions

* `Heap.Covers`: some live block contains a range of addresses
* `Cell.byte`: the bytes of a cell by number
* `Heap.overwritten`: the heap with a range of addresses written over

## Main results

* `Heap.Layout.find_of_contains`: an access within a live block is granted in that block
* `Heap.find_eq_error`: an access outside of the live blocks fails
* `Heap.Layout.store_of_covers`: a store writes over the addressed bytes and nothing else
-/

namespace CellC

/-! ### Bytes of cells -/

/-- The byte of a cell with the given number, counted from the low end. -/
def Cell.byte (cell : Cell) (i : Nat) : UInt8 := UInt8.ofNat (cell.toUInt64.toNat / byteRange i)

theorem getElem?_bytesOfNat (width n i : Nat) :
    (bytesOfNat width n)[i]? =
      if i < width then some (UInt8.ofNat (n / byteRange i)) else none := by
  induction width generalizing n i with
  | zero => simp [bytesOfNat]
  | succ width ih =>
    cases i with
    | zero => simp [bytesOfNat, byteRange]
    | succ i => simp [bytesOfNat, byteRange, ih, Nat.div_div_eq_div_mul]

theorem Cell.getElem?_toBytes (cell : Cell) (width i : Nat) :
    (cell.toBytes width)[i]? = if i < width then some (cell.byte i) else none :=
  getElem?_bytesOfNat _ _ _

theorem byteRange_pos (width : Nat) : 0 < byteRange width := by
  induction width with
  | zero => decide
  | succ width ih => exact Nat.mul_pos (by decide) ih

theorem byteRange_le (width more : Nat) : byteRange width ≤ byteRange (width + more) := by
  induction more with
  | zero => exact Nat.le_refl _
  | succ more ih =>
    rw [← Nat.add_assoc, byteRange]
    omega

/-- Up to eight bytes stand for the number with sign that they spell. -/
theorem Cell.toInt_ofBytes {bytes : List UInt8} (short : bytes.length ≤ 8) :
    (Cell.ofBytes bytes).toInt = (natOfBytes bytes : Int).bmod (byteRange bytes.length) := by
  have range_le : byteRange bytes.length ≤ byteRange 8 := by
    have grows := byteRange_le bytes.length (8 - bytes.length)
    rwa [Nat.add_sub_cancel' short] at grows
  -- The balanced remainder lies within the range of a cell, so the cell denotes it as it is.
  have low := Int.le_bmod (x := natOfBytes bytes) (byteRange_pos bytes.length)
  have high := Int.bmod_lt (x := natOfBytes bytes) (byteRange_pos bytes.length)
  have cells : byteRange 8 = 0x10000000000000000 := by decide
  unfold Cell.ofBytes
  apply Int64.toInt_ofInt_of_le <;> omega

/-! ### Ranges of addresses -/

namespace Heap

/-- Some live block contains the address range. -/
def Covers (heap : Heap) (address width : Nat) : Prop :=
  ∃ block ∈ heap.blocks, block.Contains address width
deriving Decidable

theorem accessWidth_le (width : Nat) : accessWidth width ≤ 8 := by
  unfold accessWidth
  omega

theorem contains_of_find {heap : Heap} {address : Address} {width start : Nat} {block : Block}
    (found : heap.find address width = .ok (block, start)) :
    block ∈ heap.blocks ∧ block.Contains address.toNat width ∧
      start = address.toNat - block.base.toNat := by
  unfold find at found
  split at found
  · next candidate chosen =>
    have below := List.find?_some chosen
    simp only [decide_eq_true_eq] at below
    dsimp only at found
    split at found
    · next fits =>
      cases found
      refine ⟨List.mem_of_find?_eq_some chosen, ⟨below, ?_⟩, rfl⟩
      omega
    · cases found
  · cases found

/-- The first block at or below an address is the one that contains it, if any does. -/
theorem find?_of_contains {blocks : List Block} {block : Block} {address width : Nat}
    (apart : blocks.Pairwise fun young old => old.base.toNat + old.size + 8 ≤ young.base.toNat)
    (member : block ∈ blocks) (contains : block.Contains address width) :
    blocks.find? (·.base.toNat ≤ address) = some block := by
  obtain ⟨above, within⟩ := contains
  induction apart with
  | nil => cases member
  | @cons first rest old _ ih =>
    rw [List.find?_cons]
    rcases List.mem_cons.mp member with rfl | later
    · simp [above]
    · -- A younger block starts beyond the end of the one that contains the address.
      have beyond := old block later
      rw [show decide (first.base.toNat ≤ address) = false by simp; omega]
      exact ih later

theorem find_eq_error {heap : Heap} {address : Address} {width : Nat}
    (uncovered : ¬ heap.Covers address.toNat width) :
    heap.find address width = .error (.badAddress address) := by
  cases found : heap.find address width with
  | error fault => rw [eq_badAddress_of_find found]
  | ok place =>
    obtain ⟨member, contains, -⟩ := contains_of_find found
    exact absurd ⟨_, member, contains⟩ uncovered

namespace Layout

variable {heap : Heap} (layout : heap.Layout)
include layout

theorem find_of_contains {block : Block} {address : Address} {width : Nat}
    (member : block ∈ heap.blocks) (contains : block.Contains address.toNat width) :
    heap.find address width = .ok (block, address.toNat - block.base.toNat) := by
  unfold find
  rw [find?_of_contains layout.apart member contains]
  obtain ⟨above, within⟩ := contains
  dsimp only
  rw [if_pos (by omega)]

/-- Two live blocks are the same or lie apart. -/
theorem eq_or_apart {block other : Block} (member : block ∈ heap.blocks)
    (member' : other ∈ heap.blocks) :
    block = other ∨ block.base.toNat + block.size + 8 ≤ other.base.toNat ∨
      other.base.toNat + other.size + 8 ≤ block.base.toNat := by
  refine List.Pairwise.forall_of_forall_of_flip
    (R := fun block other => block = other ∨ block.base.toNat + block.size + 8 ≤ other.base.toNat ∨
      other.base.toNat + other.size + 8 ≤ block.base.toNat) ?_ ?_ ?_ member member'
  · exact fun _ _ => .inl rfl
  · exact layout.apart.imp fun apart => .inr (.inr apart)
  · exact layout.apart.imp fun apart => .inr (.inl apart)

end Layout

/-! ### Granted accesses -/

/-- Writing within the bounds of an array replaces the bytes there. -/
theorem getElem?_overlay {bytes : Array UInt8} {start : Nat} {new : List UInt8}
    (fits : start + new.length ≤ bytes.size) (i : Nat) :
    (overlay bytes start new)[i]? =
      if start ≤ i ∧ i < start + new.length then new[i - start]? else bytes[i]? := by
  induction new generalizing bytes start with
  | nil =>
    rw [overlay, if_neg]
    rw [List.length_nil]
    omega
  | cons byte new ih =>
    rw [List.length_cons] at fits ⊢
    rw [overlay, ih (by simp only [Array.size_setIfInBounds]; omega)]
    rcases Nat.lt_trichotomy i start with before | rfl | behind
    · rw [if_neg (by omega), if_neg (by omega), Array.getElem?_setIfInBounds_ne (by omega)]
    · rw [if_neg (by omega), if_pos (by omega), Array.getElem?_setIfInBounds_self_of_lt (by omega),
        Nat.sub_self, List.getElem?_cons_zero]
    · rw [Array.getElem?_setIfInBounds_ne (by omega)]
      obtain ⟨k, rfl⟩ := Nat.exists_eq_add_of_lt behind
      have shorter : start + k + 1 - (start + 1) = k := by omega
      have longer : start + k + 1 - start = k + 1 := by omega
      rw [shorter, longer, List.getElem?_cons_succ]
      congr 1
      simp only [eq_iff_iff]
      omega

end Heap

/-- The block with the low bytes of a cell where it meets an address range. -/
def Block.overwritten (block : Block) (address width : Nat) (cell : Cell) : Block :=
  { block with
    bytes := block.bytes.mapIdx fun i byte =>
      if address ≤ block.base.toNat + i ∧ block.base.toNat + i < address + width then
        cell.byte (block.base.toNat + i - address)
      else byte }

@[simp] theorem Block.base_overwritten (block : Block) (address width : Nat) (cell : Cell) :
    (block.overwritten address width cell).base = block.base := rfl

@[simp] theorem Block.size_overwritten (block : Block) (address width : Nat) (cell : Cell) :
    (block.overwritten address width cell).size = block.size := Array.size_mapIdx

theorem Block.getElem?_overwritten (block : Block) (address width : Nat) (cell : Cell) (i : Nat) :
    (block.overwritten address width cell).bytes[i]? =
      if address ≤ block.base.toNat + i ∧ block.base.toNat + i < address + width ∧
          i < block.size then
        some (cell.byte (block.base.toNat + i - address))
      else block.bytes[i]? := by
  unfold overwritten size
  rw [Array.getElem?_mapIdx]
  rcases Nat.lt_or_ge i block.bytes.size with inside | outside
  · rw [Array.getElem?_eq_getElem inside, Option.map_some, apply_ite some]
    exact if_congr (by omega) rfl rfl
  · rw [Array.getElem?_eq_none outside, Option.map_none, if_neg (by omega)]

theorem Block.overwritten_of_contains {block : Block} {address width : Nat} {cell : Cell}
    (contains : block.Contains address width) :
    block.overwritten address width cell = { block with
      bytes := Heap.overlay block.bytes (address - block.base.toNat) (cell.toBytes width) } := by
  obtain ⟨above, within⟩ := contains
  have fits : address - block.base.toNat + (cell.toBytes width).length ≤ block.bytes.size := by
    rw [Cell.length_toBytes]
    unfold size at within
    omega
  have same : (block.overwritten address width cell).bytes =
      Heap.overlay block.bytes (address - block.base.toNat) (cell.toBytes width) := by
    apply Array.ext_getElem?
    intro i
    rw [getElem?_overwritten, Heap.getElem?_overlay fits, Cell.length_toBytes,
      Cell.getElem?_toBytes]
    by_cases addressed : address ≤ block.base.toNat + i ∧ block.base.toNat + i < address + width
    · rw [if_pos (by omega), if_pos (by omega), if_pos (by omega)]
      congr 2
      omega
    · rw [if_neg (by omega), if_neg (by omega)]
  exact congrArg (fun bytes => { block with bytes }) same

theorem Block.overwritten_of_apart {block : Block} {address width : Nat} {cell : Cell}
    (apart : block.base.toNat + block.size ≤ address ∨ address + width ≤ block.base.toNat) :
    block.overwritten address width cell = block := by
  have same : (block.overwritten address width cell).bytes = block.bytes := by
    apply Array.ext_getElem?
    intro i
    rw [getElem?_overwritten, if_neg (by omega)]
  exact congrArg (fun bytes => { block with bytes }) same

namespace Heap

/-- An access outside of the live blocks fails with the address at which it was tried. -/
theorem load_of_not_covers {heap : Heap} {address : Address} {width : Nat}
    (uncovered : ¬ heap.Covers address.toNat (accessWidth width)) :
    heap.load address width = .error (.badAddress address) := by
  unfold load
  rw [find_eq_error uncovered]
  rfl

theorem store_of_not_covers {heap : Heap} {address : Address} {width : Nat}
    (uncovered : ¬ heap.Covers address.toNat (accessWidth width)) (cell : Cell) :
    heap.store address width cell = .error (.badAddress address) := by
  unfold store
  rw [find_eq_error uncovered]
  rfl

/-- The heap with the low bytes of a cell in an address range. -/
def overwritten (heap : Heap) (address width : Nat) (cell : Cell) : Heap :=
  { heap with blocks := heap.blocks.map (·.overwritten address width cell) }

/-- A store within a live block writes the addressed bytes and leaves all other bytes of all blocks
alone. -/
theorem Layout.store_of_covers {heap : Heap} (layout : heap.Layout) {address : Address}
    {width : Nat} (covers : heap.Covers address.toNat (accessWidth width)) (cell : Cell) :
    heap.store address width cell =
      .ok (heap.overwritten address.toNat (accessWidth width) cell) := by
  obtain ⟨block, member, contains⟩ := covers
  rw [store_of_find (layout.find_of_contains member contains), layout.write_eq, overwritten]
  congr 2
  refine List.map_congr_left fun other member' => ?_
  rcases layout.eq_or_apart member member' with rfl | apart
  · rw [if_pos rfl, Block.overwritten_of_contains contains]
  · have distinct : other.base ≠ block.base := by
      intro same
      rw [same] at apart
      omega
    obtain ⟨above, within⟩ := contains
    rw [if_neg distinct, Block.overwritten_of_apart (by omega)]

end Heap

end CellC
