import CellC.Memory.Heap

/-!
# The layout of the heap

Blocks are placed one after the other, at multiples of eight and with a gap between neighbours, and
no address is handed out twice. This holds as long as the address space lasts: an allocation that
would reach its end leaves the next address at the last one, from which no further block can be told
apart.

## Main definitions

* `Heap.Layout`: how the live blocks lie
* `Heap.Request`, `Heap.Run`: sequences of requests to a heap for which the address space lasts

## Main results

* `Heap.Layout.allocate`, `Heap.Layout.remove`, `Heap.Layout.store`: every operation keeps the
  layout
* `Heap.Run.layout`: so every heap that requests lead to has it
-/

namespace CellC

/-- The bytes of the address range of the given width belong to the block. -/
def Block.Contains (block : Block) (address width : Nat) : Prop :=
  block.base.toNat ≤ address ∧ address + width ≤ block.base.toNat + block.size
deriving Decidable

namespace Heap

/-- The lowest address at which a block may start. -/
def firstAddress : Nat := 0x10000000

/-- The live blocks lie in descending order, above the first address and below the next one, at
multiples of eight and with gaps of at least eight bytes. -/
structure Layout (heap : Heap) : Prop where
  next_aligned : 8 ∣ heap.next.toNat
  first_le_next : firstAddress ≤ heap.next.toNat
  aligned : ∀ block ∈ heap.blocks, 8 ∣ block.base.toNat
  first_le : ∀ block ∈ heap.blocks, firstAddress ≤ block.base.toNat
  below : ∀ block ∈ heap.blocks, block.base.toNat + block.size + 8 ≤ heap.next.toNat
  apart : heap.blocks.Pairwise fun young old =>
    old.base.toNat + old.size + 8 ≤ young.base.toNat

/-! ### The next address -/

/-- Where the next block goes if the address space lasts. -/
theorem toNat_following {base : Address} {size : Nat} (room : base.toNat + size + 15 ≤ maxWord) :
    (following base size).toNat = (base.toNat + size + 15) / 8 * 8 := by
  unfold following alignment gap
  rw [Address.toNat_ofNat_of_le (Nat.min_le_left _ _)]
  omega

/-- At the end of the address space the next address becomes the last one. -/
theorem toNat_following_of_lt {base : Address} {size : Nat}
    (full : maxWord < base.toNat + size + 15) : (following base size).toNat = maxWord := by
  unfold following alignment gap
  rw [Address.toNat_ofNat_of_le (Nat.min_le_left _ _)]
  unfold maxWord at full ⊢
  omega

/-- The next address is the last one exactly if an allocation reached the end of the address
space. -/
theorem toNat_following_lt_iff {base : Address} {size : Nat} :
    (following base size).toNat < maxWord ↔ base.toNat + size + 15 ≤ maxWord := by
  constructor
  · intro last
    rcases Nat.lt_or_ge maxWord (base.toNat + size + 15) with full | room
    · rw [toNat_following_of_lt full] at last
      exact absurd last (Nat.lt_irrefl _)
    · exact room
  · intro room
    rw [toNat_following room]
    unfold maxWord at room ⊢
    omega

theorem le_following {base : Address} {size : Nat} :
    base.toNat ≤ (following base size).toNat := by
  by_cases room : base.toNat + size + 15 ≤ maxWord
  · rw [toNat_following room]
    omega
  · rw [toNat_following_of_lt (by omega)]
    exact base.toNat_le_maxWord

theorem next_eq_of_allocate {heap after : Heap} {size : Cell} {purpose : Purpose} {base : Address}
    (made : heap.allocate size purpose = .ok (base, after)) :
    base = heap.next ∧ after.next = following heap.next size.toInt.toNat := by
  unfold Heap.allocate at made
  split at made
  · cases made
    exact ⟨rfl, rfl⟩
  · cases made

/-! ### Operations -/

namespace Layout

variable {heap : Heap}

theorem empty : Layout {} where
  next_aligned := by decide
  first_le_next := by decide
  aligned := by simp
  first_le := by simp
  below := by simp
  apart := .nil

theorem base_ne_next (layout : heap.Layout) {block : Block} (member : block ∈ heap.blocks) :
    block.base ≠ heap.next := by
  intro same
  have below := layout.below block member
  rw [same] at below
  omega

/-- With a layout, an allocation puts the new block in front of all others. -/
theorem allocate_eq (layout : heap.Layout) {size : Cell} {purpose : Purpose} {base : Address}
    {after : Heap} (made : heap.allocate size purpose = .ok (base, after)) :
    0 ≤ size.toInt ∧ size.toInt ≤ maxBlock ∧ base = heap.next ∧
      after = {
        blocks := { base := heap.next, purpose, bytes := Array.replicate size.toInt.toNat 0 } ::
          heap.blocks
        next := following heap.next size.toInt.toNat } := by
  unfold Heap.allocate at made
  split at made
  · next fits =>
    have others : heap.blocks.filter (·.base ≠ heap.next) = heap.blocks := by
      rw [List.filter_eq_self]
      intro block member
      simpa using layout.base_ne_next member
    rw [others] at made
    cases made
    exact ⟨fits.1, fits.2, rfl, rfl⟩
  · cases made

theorem allocate (layout : heap.Layout) {size : Cell} {purpose : Purpose} {base : Address}
    {after : Heap} (made : heap.allocate size purpose = .ok (base, after))
    (room : after.next.toNat < maxWord) : after.Layout := by
  obtain ⟨-, -, -, rfl⟩ := layout.allocate_eq made
  have next := toNat_following (toNat_following_lt_iff.mp room)
  have aligned := layout.next_aligned
  have first := layout.first_le_next
  refine ⟨?_, ?_, ?_, ?_, ?_, ?_⟩
  · rw [next]
    exact Nat.dvd_mul_left _ _
  · rw [next]
    omega
  · rintro block (_ | ⟨_, member⟩)
    · exact aligned
    · exact layout.aligned block member
  · rintro block (_ | ⟨_, member⟩)
    · exact first
    · exact layout.first_le block member
  · rintro block (_ | ⟨_, member⟩)
    · simp only [Block.size, Array.size_replicate, next]
      omega
    · have below := layout.below block member
      rw [next]
      omega
  · exact .cons (fun block member => layout.below block member) layout.apart

/-- A heap with some of the blocks has the layout, too. -/
theorem sublist (layout : heap.Layout) {blocks : List Block} (sub : blocks.Sublist heap.blocks) :
    Layout { heap with blocks } where
  next_aligned := layout.next_aligned
  first_le_next := layout.first_le_next
  aligned block member := layout.aligned block (sub.subset member)
  first_le block member := layout.first_le block (sub.subset member)
  below block member := layout.below block (sub.subset member)
  apart := layout.apart.sublist sub

theorem remove (layout : heap.Layout) (base : Address) : (heap.remove base).Layout :=
  layout.sublist List.filter_sublist

theorem removeAll (layout : heap.Layout) (bases : List Address) : (heap.removeAll bases).Layout :=
  layout.sublist List.filter_sublist

/-- Blocks with other contents but the same places have the same layout. -/
theorem map (layout : heap.Layout) {f : Block → Block} (base : ∀ block, (f block).base = block.base)
    (size : ∀ block, (f block).size = block.size) :
    Layout { heap with blocks := heap.blocks.map f } where
  next_aligned := layout.next_aligned
  first_le_next := layout.first_le_next
  aligned := by simpa [base] using layout.aligned
  first_le := by simpa [base] using layout.first_le
  below := by simpa [base, size] using layout.below
  apart := by
    rw [List.pairwise_map]
    simpa [base, size] using layout.apart

/-- Live blocks have distinct bases. -/
theorem nodup (layout : heap.Layout) : (heap.blocks.map Block.base).Nodup := by
  rw [List.Nodup, List.pairwise_map]
  refine layout.apart.imp fun apart same => ?_
  rw [same] at apart
  omega

end Layout

/-- Writing over the block at a base, where no two blocks share one, is a change of each block by
itself. -/
theorem overlayAt_eq_map {base : Address} {start : Nat} {new : List UInt8} {blocks : List Block}
    (nodup : (blocks.map Block.base).Nodup) :
    overlayAt base start new blocks = blocks.map fun block =>
      if block.base = base then { block with bytes := overlay block.bytes start new }
      else block := by
  induction blocks with
  | nil => rfl
  | cons block blocks ih =>
    rw [List.map_cons, List.nodup_cons] at nodup
    rw [overlayAt, List.map_cons]
    split
    · next same =>
      congr 1
      refine (List.map_id blocks).symm.trans (List.map_congr_left fun other member => ?_)
      rw [if_neg]
      · rfl
      · intro equal
        exact nodup.1 (same ▸ equal ▸ List.mem_map_of_mem member)
    · rw [ih nodup.2]

theorem Layout.write_eq {heap : Heap} (layout : heap.Layout) (base : Address) (start : Nat)
    (new : List UInt8) :
    heap.write base start new = { heap with
      blocks := heap.blocks.map fun block =>
        if block.base = base then { block with bytes := overlay block.bytes start new }
        else block } := by
  unfold write
  rw [overlayAt_eq_map layout.nodup]

theorem Layout.write {heap : Heap} (layout : heap.Layout) (base : Address) (start : Nat)
    (new : List UInt8) : (heap.write base start new).Layout := by
  rw [layout.write_eq]
  refine layout.map (fun block => ?_) (fun block => ?_)
  · split <;> rfl
  · unfold Block.size
    split
    · exact size_overlay _ _ _
    · rfl

theorem store_eq_ok {heap after : Heap} {address : Address} {width : Nat} {cell : Cell}
    (stored : heap.store address width cell = .ok after) :
    ∃ block start, heap.find address (accessWidth width) = .ok (block, start) ∧
      after = heap.write block.base start (cell.toBytes (accessWidth width)) := by
  cases found : heap.find address (accessWidth width) with
  | error fault =>
    unfold store at stored
    rw [found] at stored
    cases stored
  | ok place =>
    rw [store_of_find found] at stored
    cases stored
    exact ⟨_, _, rfl, rfl⟩

theorem Layout.store {heap after : Heap} {address : Address} {width : Nat} {cell : Cell}
    (layout : heap.Layout) (stored : heap.store address width cell = .ok after) :
    after.Layout := by
  obtain ⟨block, start, -, rfl⟩ := store_eq_ok stored
  exact layout.write _ _ _

/-! ### Sequences of requests -/

/-- A request to a heap. -/
inductive Request
  | allocate (size : Cell) (purpose : Purpose)
  | release (address : Address)
  | load (address : Address) (width : Nat)
  | store (address : Address) (width : Nat) (cell : Cell)

/-- The heap after a request, whether it was granted or not. -/
def after (heap : Heap) : Request → Heap
  | .allocate size purpose =>
    match heap.allocate size purpose with
    | .ok (_, heap) => heap
    | .error _ => heap
  | .release address => (heap.release address).2
  | .load _ _ => heap
  | .store address width cell =>
    match heap.store address width cell with
    | .ok heap => heap
    | .error _ => heap

/-- The address space lasts for a request: no block of a permitted size reaches its end. -/
def HasRoom (heap : Heap) : Request → Prop
  | .allocate size _ => 0 ≤ size.toInt → size.toInt ≤ maxBlock →
    heap.next.toNat + size.toInt.toNat + 15 ≤ maxWord
  | .release _ | .load _ _ | .store _ _ _ => True

instance (heap : Heap) : (request : Request) → Decidable (heap.HasRoom request)
  | .allocate _ _ => inferInstanceAs (Decidable (_ → _ → _))
  | .release _ | .load _ _ | .store _ _ _ => inferInstanceAs (Decidable True)

/-- The requests to an empty heap, the latest first and each with the heap it met, that led to a
heap. For each of them the address space lasted. -/
inductive Run : List (Heap × Request) → Heap → Prop
  | start : Run [] {}
  | step {past : List (Heap × Request)} {heap : Heap} (request : Request) :
    Run past heap → heap.HasRoom request → Run ((heap, request) :: past) (heap.after request)

theorem Layout.after {heap : Heap} (layout : heap.Layout) {request : Request}
    (room : heap.HasRoom request) : (heap.after request).Layout := by
  cases request with
  | allocate size purpose =>
    unfold Heap.after
    dsimp only
    cases made : heap.allocate size purpose with
    | error fault => exact layout
    | ok answer =>
      obtain ⟨base, next⟩ := answer
      obtain ⟨low, high, -, rfl⟩ := layout.allocate_eq made
      have lasts := room low high
      exact layout.allocate made (toNat_following_lt_iff.mpr lasts)
  | release address =>
    unfold Heap.after Heap.release
    dsimp only
    split
    · exact layout.remove address
    · exact layout
  | load address width => exact layout
  | store address width cell =>
    unfold Heap.after
    dsimp only
    cases stored : heap.store address width cell with
    | error fault => exact layout
    | ok answer => exact layout.store stored

/-- Every heap that requests lead to, while the address space lasts, has the layout. -/
theorem Run.layout {past : List (Heap × Request)} {heap : Heap} (run : Run past heap) :
    heap.Layout := by
  induction run with
  | start => exact .empty
  | step request _ room ih => exact ih.after room

end Heap

end CellC
