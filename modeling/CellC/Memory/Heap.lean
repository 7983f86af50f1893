import CellC.Cell.Bytes
import CellC.Fault

/-!
# The heap

Memory is a set of blocks of bytes. Each new block is placed above all blocks before it: at a
multiple of eight and at least eight bytes after the youngest of them, as long as the address space
lasts. An access of one to eight bytes has to lie within one live block.

## Main definitions

* `Heap`: the live blocks and the next free address
* `Heap.allocate`, `Heap.release`: a new block of zeros, and the end of a block
* `Heap.load`, `Heap.store`: access to the bytes of a block
* `Heap.find`: the block and offset of an access
-/

namespace CellC

/-- What a block was made for. -/
inductive Purpose
  /-- The storage of a declared array, which belongs to a frame. -/
  | array
  /-- Storage that the program asked for. -/
  | explicit
deriving DecidableEq

/-- How diagnostics write what a block was made for. -/
def Purpose.text : Purpose → String
  | array => "Array"
  | explicit => "Explicit"

/-- A block of memory. -/
structure Block where
  /-- The address of the first byte. -/
  base : Address
  /-- What the block was made for. -/
  purpose : Purpose
  /-- The contents. -/
  bytes : Array UInt8
deriving DecidableEq

/-- The number of bytes of a block. -/
def Block.size (block : Block) : Nat := block.bytes.size

/-- The live blocks, the youngest first and hence in descending order of address. -/
structure Heap where
  /-- The live blocks. -/
  blocks : List Block := []
  /-- The address of the next block. -/
  next : Address := ⟨0x10000000⟩

namespace Heap

/-- Blocks start at multiples of this many bytes. -/
def alignment : Nat := 8

/-- The number of unused bytes between neighbouring blocks. -/
def gap : Nat := 8

/-- The size of the largest block. -/
def maxBlock : Nat := 0x100000000

/-- The address after a block of `size` bytes at `base`, with a gap and at a multiple of the
alignment, or the last address if the address space ends before. -/
def following (base : Address) (size : Nat) : Address :=
  let free := min maxWord (base.toNat + size + gap)
  .ofNat (min maxWord ((free + (alignment - 1)) / alignment * alignment))

/-- A new block of `size` zero bytes: its address and the heap that has it. A block that lives at
the same address, as can happen at the very end of the address space, is replaced. -/
def allocate (heap : Heap) (size : Cell) (purpose : Purpose) : Except Fault (Address × Heap) :=
  if 0 ≤ size.toInt ∧ size.toInt ≤ maxBlock then
    let count := size.toInt.toNat
    let block : Block := { base := heap.next, purpose, bytes := Array.replicate count 0 }
    .ok (heap.next,
      { blocks := block :: heap.blocks.filter (·.base ≠ heap.next)
        next := following heap.next count })
  else .error (.badSize size)

/-- The live block that starts at an address. -/
def blockAt? (heap : Heap) (base : Address) : Option Block := heap.blocks.find? (·.base = base)

/-- The heap without the block that starts at an address. -/
def remove (heap : Heap) (base : Address) : Heap :=
  { heap with blocks := heap.blocks.filter (·.base ≠ base) }

/-- Ends the block that starts at an address: the block that ended, if there was one, and the heap
without it. -/
def release (heap : Heap) (base : Address) : Option Block × Heap :=
  match heap.blockAt? base with
  | some block => (some block, heap.remove base)
  | none => (none, heap)

/-- The number of live blocks. -/
def count (heap : Heap) : Nat := heap.blocks.length

/-- The width at which an access takes place: at least one byte and at most a cell. -/
def accessWidth (width : Nat) : Nat := max 1 (min 8 width)

/-- The block and the offset in it of an access of `width` bytes. Only the block with the greatest
base at or below the address comes into question. -/
def find (heap : Heap) (address : Address) (width : Nat) : Except Fault (Block × Nat) :=
  -- The blocks are in descending order, so the first one in question has the greatest base.
  match heap.blocks.find? (·.base.toNat ≤ address.toNat) with
  | some block =>
    let start := address.toNat - block.base.toNat
    if start + width ≤ block.size then .ok (block, start) else .error (.badAddress address)
  | none => .error (.badAddress address)

/-- The cell that `width` bytes at an address stand for. -/
def load (heap : Heap) (address : Address) (width : Nat) : Except Fault Cell := do
  let (block, start) ← heap.find address (accessWidth width)
  pure (Cell.ofBytes (block.bytes.extract start (start + accessWidth width)).toList)

/-- The bytes `bytes` with `new` written over them from `start` on. -/
def overlay (bytes : Array UInt8) (start : Nat) : List UInt8 → Array UInt8
  | [] => bytes
  | byte :: new => overlay (bytes.setIfInBounds start byte) (start + 1) new

/-- The blocks with bytes written over the one that starts at `base`. -/
def overlayAt (base : Address) (start : Nat) (new : List UInt8) : List Block → List Block
  | [] => []
  | block :: blocks =>
    if block.base = base then { block with bytes := overlay block.bytes start new } :: blocks
    else block :: overlayAt base start new blocks

/-- The heap with bytes written over the block that starts at `base`. -/
def write (heap : Heap) (base : Address) (start : Nat) (new : List UInt8) : Heap :=
  { heap with blocks := overlayAt base start new heap.blocks }

/-- The greatest base of a live block at or below an address. -/
def baseOf? (heap : Heap) (address : Address) : Option Address :=
  (heap.blocks.find? (·.base.toNat ≤ address.toNat)).map Block.base

/-- The heap after the `width` low bytes of a cell were written at an address. Where the access may
take place is found first, and then once more the block to write to. -/
def store (heap : Heap) (address : Address) (width : Nat) (cell : Cell) : Except Fault Heap := do
  let (_, start) ← heap.find address (accessWidth width)
  match heap.baseOf? address with
  | some base => pure (heap.write base start (cell.toBytes (accessWidth width)))
  | none => .error (.badAddress address)

/-- Writing over bytes does not change their number. -/
@[simp] theorem size_overlay (bytes : Array UInt8) (start : Nat) (new : List UInt8) :
    (overlay bytes start new).size = bytes.size := by
  induction new generalizing bytes start with
  | nil => rfl
  | cons byte new ih => simp [overlay, ih]

/-- Writing over a block does not change where the blocks are. -/
theorem map_base_overlayAt (base : Address) (start : Nat) (new : List UInt8)
    (blocks : List Block) :
    (overlayAt base start new blocks).map Block.base = blocks.map Block.base := by
  induction blocks with
  | nil => rfl
  | cons block blocks ih =>
    rw [overlayAt]
    split <;> simp [ih]

/-- No block lives at an address from which a block was removed. -/
theorem blockAt?_remove_self (heap : Heap) (base : Address) :
    (heap.remove base).blockAt? base = none := by
  simp [remove, blockAt?]

/-- Where no block starts there is none to remove. -/
theorem remove_eq_self {heap : Heap} {base : Address} (vacant : heap.blockAt? base = none) :
    heap.remove base = heap := by
  unfold remove
  rw [List.filter_eq_self.mpr]
  intro block member
  simpa using List.find?_eq_none.mp vacant block member

/-- A failed access names the address at which it was tried. -/
theorem eq_badAddress_of_find {heap : Heap} {address : Address} {width : Nat} {fault : Fault}
    (h : heap.find address width = .error fault) : fault = .badAddress address := by
  unfold find at h
  split at h
  · simp only at h
    split at h
    · cases h
    · cases h; rfl
  · cases h; rfl

theorem eq_badAddress_of_load {heap : Heap} {address : Address} {width : Nat} {fault : Fault}
    (h : heap.load address width = .error fault) : fault = .badAddress address := by
  unfold load at h
  cases found : heap.find address (accessWidth width) with
  | ok place => rw [found] at h; cases h
  | error other =>
    rw [found] at h
    cases h
    exact eq_badAddress_of_find found

/-- The two searches of a store agree. -/
theorem baseOf?_of_find {heap : Heap} {address : Address} {width start : Nat} {block : Block}
    (h : heap.find address width = .ok (block, start)) :
    heap.baseOf? address = some block.base := by
  unfold find at h
  unfold baseOf?
  split at h
  · next candidate chosen =>
    simp only at h
    split at h
    · cases h
      rw [chosen, Option.map_some]
    · cases h
  · cases h

theorem store_of_find {heap : Heap} {address : Address} {width start : Nat} {block : Block}
    (h : heap.find address (accessWidth width) = .ok (block, start)) (cell : Cell) :
    heap.store address width cell =
      .ok (heap.write block.base start (cell.toBytes (accessWidth width))) := by
  unfold store
  rw [h]
  show (match heap.baseOf? address with | some base => _ | none => _) = _
  rw [baseOf?_of_find h]
  rfl

theorem eq_badAddress_of_store {heap : Heap} {address : Address} {width : Nat} {cell : Cell}
    {fault : Fault} (h : heap.store address width cell = .error fault) :
    fault = .badAddress address := by
  cases found : heap.find address (accessWidth width) with
  | ok place => rw [store_of_find found] at h; cases h
  | error other =>
    unfold store at h
    rw [found] at h
    cases h
    exact eq_badAddress_of_find found

theorem eq_badSize_of_allocate {heap : Heap} {size : Cell} {purpose : Purpose} {fault : Fault}
    (h : heap.allocate size purpose = .error fault) : fault = .badSize size := by
  unfold allocate at h
  split at h <;> cases h
  rfl

/-- The heap without the blocks that start at any of the given addresses. -/
def removeAll (heap : Heap) (bases : List Address) : Heap :=
  { heap with blocks := heap.blocks.filter (·.base ∉ bases) }

@[simp] theorem removeAll_nil (heap : Heap) : heap.removeAll [] = heap := by
  unfold removeAll
  rw [List.filter_eq_self.mpr]
  simp

theorem removeAll_cons (heap : Heap) (base : Address) (bases : List Address) :
    heap.removeAll (base :: bases) = (heap.remove base).removeAll bases := by
  simp only [removeAll, remove, List.filter_filter, List.mem_cons]
  congr 2
  ext block
  by_cases h : block.base = base <;> simp [h]

theorem removeAll_append (heap : Heap) (bases more : List Address) :
    heap.removeAll (bases ++ more) = (heap.removeAll bases).removeAll more := by
  induction bases generalizing heap with
  | nil => rw [List.nil_append, removeAll_nil]
  | cons base bases ih => rw [List.cons_append, removeAll_cons, removeAll_cons, ih]

end Heap

end CellC
