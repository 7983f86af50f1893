import CellC.Cell.Value
import CellC.Proofs.Heap.Checked
import CellC.Proofs.Heap.Order
import CellC.Proofs.Typing.NestedTypes

/-!
# Loading what was stored

What was stored is loaded again, as far as its bytes tell, and what lies apart from it is loaded as
before. It does not matter in which order the blocks lie: for any address the same block is found
before a store and after it.

## Main definitions

* `Block.extent`: where a block lies and what it was made for

## Main results

* `Heap.load_store_self`, `Heap.load_store_apart`: loads after a store
* `Heap.extents_store`: a store leaves the blocks where they are
* `TypeTable.view_load_store`: a type that is no array reads back what it wrote
-/

namespace CellC

/-- Where the block lies and what it was made for. -/
def Block.extent (block : Block) : Address × Purpose × Nat :=
  (block.base, block.purpose, block.size)

namespace Heap

variable {heap after : Heap} {address : Address} {width start : Nat} {block : Block} {cell : Cell}

/-- The block that is found for an address is the first one that starts where it does. -/
theorem blockAt?_of_find (found : heap.find address width = .ok (block, start)) :
    heap.blockAt? block.base = some block := by
  have again := blockAt?_baseOf? (chosen_of_find found)
  rwa [baseOf?_of_find found] at again

theorem load_of_find (found : heap.find address (accessWidth width) = .ok (block, start)) :
    heap.load address width = .ok (block.read start (accessWidth width)) := by
  unfold load
  rw [found]
  rfl

/-! ### Writing -/

theorem extents_overlayAt (base : Address) (start : Nat) (new : List UInt8)
    (blocks : List Block) :
    (overlayAt base start new blocks).map Block.extent = blocks.map Block.extent := by
  induction blocks with
  | nil => rfl
  | cons block blocks ih =>
    rw [overlayAt]
    split
    · simp [Block.extent, Block.size]
    · rw [List.map_cons, List.map_cons, ih]

/-- The block that is chosen for an address is chosen again, and it was written over if it starts at
the given base. -/
theorem find?_overlayAt (base : Address) (start : Nat) (new : List UInt8) (blocks : List Block)
    (bound : Nat) :
    (overlayAt base start new blocks).find? (·.base.toNat ≤ bound) =
      (blocks.find? (·.base.toNat ≤ bound)).map fun block =>
        if block.base = base then block.written start new else block := by
  induction blocks with
  | nil => rfl
  | cons block blocks ih =>
    rw [overlayAt]
    by_cases chosen : block.base.toNat ≤ bound
    · rw [List.find?_cons_of_pos (by simpa using chosen), Option.map_some]
      split
      · exact List.find?_cons_of_pos (by simpa using chosen)
      · exact List.find?_cons_of_pos (by simpa using chosen)
    · rw [List.find?_cons_of_neg (by simpa using chosen)]
      split
      · next here =>
        rw [List.find?_cons_of_neg (by simpa using chosen)]
        cases found : blocks.find? (·.base.toNat ≤ bound) with
        | none => rfl
        | some other =>
          have below : other.base.toNat ≤ bound := by simpa using List.find?_some found
          rw [Option.map_some, if_neg]
          rintro same
          exact chosen (here.trans same.symm ▸ below)
      · rw [List.find?_cons_of_neg (by simpa using chosen), ih]

/-- The same place is found after writing. -/
theorem find_write (heap : Heap) (base : Address) (start : Nat) (new : List UInt8)
    (address : Address) (width : Nat) :
    (heap.write base start new).find address width =
      (heap.find address width).map fun place =>
        (if place.1.base = base then place.1.written start new else place.1, place.2) := by
  unfold write find
  dsimp only
  rw [find?_overlayAt]
  cases heap.blocks.find? (·.base.toNat ≤ address.toNat) with
  | none => rfl
  | some block =>
    have place : (if block.base = base then block.written start new else block).base =
        block.base := by
      split <;> rfl
    have extent : (if block.base = base then block.written start new else block).size =
        block.size := by
      split
      · exact Block.size_written _ _ _
      · rfl
    rw [Option.map_some]
    dsimp only
    rw [place, extent]
    split <;> rfl

/-! ### Loads after a store -/

section Stored

variable (stored : heap.store address width cell = .ok after)
include stored

/-- What was stored is loaded again. -/
theorem load_store_self :
    after.load address width = .ok (Cell.ofBytes (cell.toBytes (accessWidth width))) := by
  obtain ⟨block, start, found, rfl⟩ := store_eq_ok stored
  have again := find_write heap block.base start (cell.toBytes (accessWidth width)) address
    (accessWidth width)
  rw [found, Except.map, if_pos rfl] at again
  rw [load_of_find again, Block.read_written_self (within_of_find found)]

/-- What lies apart from what was stored is loaded as before, or refused as before. -/
theorem load_store_apart {other : Address} {width' : Nat}
    (apart : other.toNat + accessWidth width' ≤ address.toNat ∨
      address.toNat + accessWidth width ≤ other.toNat) :
    after.load other width' = heap.load other width' := by
  obtain ⟨block, start, found, rfl⟩ := store_eq_ok stored
  have again := find_write heap block.base start (cell.toBytes (accessWidth width)) other
    (accessWidth width')
  cases found' : heap.find other (accessWidth width') with
  | error fault =>
    rw [found', Except.map] at again
    unfold load
    rw [again, found']
  | ok place =>
    obtain ⟨block', offset⟩ := place
    rw [found', Except.map] at again
    rw [load_of_find again, load_of_find found']
    split
    · next same =>
      obtain rfl : block' = block := by
        have here := blockAt?_of_find found'
        rw [same, blockAt?_of_find found] at here
        exact (Option.some.inj here).symm
      obtain ⟨-, ⟨above, -⟩, rfl⟩ := contains_of_find found
      obtain ⟨-, ⟨above', -⟩, rfl⟩ := contains_of_find found'
      have within := within_of_find found
      rw [Block.read_written_apart]
      · rw [Cell.length_toBytes]
        exact within
      · rw [Cell.length_toBytes]
        omega
    · rfl

/-- A store leaves the blocks where they are. -/
theorem extents_store :
    after.blocks.map Block.extent = heap.blocks.map Block.extent ∧ after.next = heap.next := by
  obtain ⟨block, start, -, rfl⟩ := store_eq_ok stored
  exact ⟨extents_overlayAt _ _ _ _, rfl⟩

end Stored

end Heap

/-! ### At a type -/

namespace TypeTable

variable {table : TypeTable} {type : TypeId}

/-- An object that is no array is accessed at its width. -/
theorem accessWidth_width (object : table.isArray type = false) :
    Heap.accessWidth (table.width type) = table.scalarWidth type := by
  rw [(Nested.object object).width]
  unfold scalarWidth
  split <;> rfl

/-- The bytes of what a type has read stand for it. -/
theorem ofBytes_toBytes_view (cell : Cell) :
    Cell.ofBytes ((table.view type cell).cell.toBytes (table.scalarWidth type)) =
      (table.view type cell).cell := by
  unfold scalarWidth view
  by_cases char : table.layer type = .char
  · rw [if_pos char, Cell.ofBytes_toBytes_one, char]
    simp [Value.ofCell, Value.cell]
  · rw [if_neg char, Cell.ofBytes_toBytes_eight]

/-- A type that is no array reads back what it stored. -/
theorem view_load_store (object : table.isArray type = false) {heap after : Heap}
    {address : Address} {cell : Cell}
    (stored : heap.store address (table.width type) (table.view type cell).cell = .ok after) :
    ∃ loaded, after.load address (table.width type) = .ok loaded ∧
      table.view type loaded = table.view type cell := by
  refine ⟨_, Heap.load_store_self stored, ?_⟩
  rw [accessWidth_width object, ofBytes_toBytes_view]
  exact Value.ofCell_cell_ofCell _ _

end TypeTable

end CellC
