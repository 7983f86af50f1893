import CellC.Proofs.Heap.Gaps
import CellC.Proofs.Ownership.Invariant

/-!
# Dead ranges

The range of a block that has ended is dead: it lies below the next address, apart from all live
blocks. As new blocks are placed from the next address on, a dead range stays dead whatever is
requested of the heap.

## Main definitions

* `Heap.Dead`: the range of a block that has ended
* `Heap.Refuses`: what cannot be requested of a range

## Main results

* `Heap.Dead.refuses`: a dead range can neither be accessed nor end again
* `Heap.Dead.after`: dead ranges stay dead
* `Heap.Run.dead_of_release`: the range of a block that has ended is dead from then on
-/

namespace CellC

namespace Heap

/-- The `size` bytes from `base` on lie below the next address and, with a gap, apart from all live
blocks. -/
structure Dead (heap : Heap) (base : Address) (size : Nat) : Prop where
  below : base.toNat + size + 8 ≤ heap.next.toNat
  apart : ∀ start count purpose, heap.Live start count purpose →
    start.toNat + count + 8 ≤ base.toNat ∨ base.toNat + size + 8 ≤ start.toNat

/-- An access of some width at an address has a byte in common with the `size` bytes from `base`
on. -/
def Touches (address : Address) (width : Nat) (base : Address) (size : Nat) : Prop :=
  ∃ position, address.toNat ≤ position ∧ position < address.toNat + accessWidth width ∧
    base.toNat ≤ position ∧ position < base.toNat + size

/-- No access that touches the `size` bytes from `base` on is granted, and no block ends at the
first of them or at one behind it. -/
structure Refuses (heap : Heap) (base : Address) (size : Nat) : Prop where
  access : ∀ address width, Touches address width base size → heap.Denies address width
  release : ∀ address : Address, base.toNat ≤ address.toNat → address.toNat ≤ base.toNat + size →
    heap.release address = (none, heap)

theorem blockAt?_eq_none_of_release {heap : Heap} {address : Address}
    (refused : heap.release address = (none, heap)) : heap.blockAt? address = none := by
  unfold release at refused
  split at refused
  · cases refused
  · next missing => exact missing

namespace Dead

variable {heap : Heap} {base : Address} {size : Nat} (dead : heap.Dead base size)
include dead

/-! ### What a dead range refuses -/

theorem not_covers {address : Address} {width : Nat} (touches : Touches address width base size) :
    ¬ heap.Covers address.toNat (accessWidth width) := by
  rintro ⟨block, member, above, within⟩
  obtain ⟨position, low, high, low', high'⟩ := touches
  have apart := dead.apart _ _ _ ⟨block, member, rfl, rfl, rfl⟩
  omega

/-- A dead range is out of reach. -/
theorem refuses : heap.Refuses base size where
  access _ _ touches := denies_of_not_covers (dead.not_covers touches)
  release address above within := by
    refine release_eq_none fun block member same => ?_
    have apart := dead.apart _ _ _ ⟨block, member, rfl, rfl, rfl⟩
    rw [same] at apart
    omega

/-! ### Dead ranges stay dead -/

/-- With no new blocks and with the same next address, nothing comes near. -/
theorem of_live {after : Heap} (next : after.next = heap.next)
    (live : ∀ start count purpose, after.Live start count purpose →
      heap.Live start count purpose) : after.Dead base size where
  below := next ▸ dead.below
  apart start count purpose alive := dead.apart start count purpose (live start count purpose alive)

theorem remove (address : Address) : (heap.remove address).Dead base size :=
  dead.of_live rfl fun _ _ _ alive => (live_remove.mp alive).1

theorem store {address : Address} {width : Nat} {cell : Cell} {after : Heap}
    (stored : heap.store address width cell = .ok after) : after.Dead base size := by
  obtain ⟨block, start, -, rfl⟩ := store_eq_ok stored
  exact dead.of_live rfl fun _ _ _ => live_write.mp

theorem allocate {cell : Cell} {purpose : Purpose} {start : Address} {after : Heap}
    (made : heap.allocate cell purpose = .ok (start, after)) : after.Dead base size := by
  unfold Heap.allocate at made
  split at made
  · cases made
    refine ⟨Nat.le_trans dead.below le_following, ?_⟩
    rintro other count reason ⟨block, member, rfl, rfl, rfl⟩
    rcases List.mem_cons.mp member with rfl | older
    · exact .inr dead.below
    · exact dead.apart _ _ _ ⟨block, (List.mem_filter.mp older).1, rfl, rfl, rfl⟩
  · cases made

theorem after (request : Request) : (heap.after request).Dead base size := by
  cases request with
  | allocate size purpose =>
    unfold Heap.after
    dsimp only
    cases made : heap.allocate size purpose with
    | error fault => exact dead
    | ok answer => exact dead.allocate made
  | release address =>
    unfold Heap.after Heap.release
    dsimp only
    split
    · exact dead.remove address
    · exact dead
  | load address width => exact dead
  | store address width cell =>
    unfold Heap.after
    dsimp only
    cases stored : heap.store address width cell with
    | error fault => exact dead
    | ok answer => exact dead.store stored

end Dead

/-- A live block is found by its address. -/
theorem Layout.blockAt?_base {heap : Heap} (layout : heap.Layout) {block : Block}
    (member : block ∈ heap.blocks) : heap.blockAt? block.base = some block := by
  cases found : heap.blockAt? block.base with
  | none => exact absurd (List.find?_eq_none.mp found block member) (by simp)
  | some other =>
    have same : other.base = block.base := by simpa using List.find?_some found
    rcases layout.eq_or_apart (List.mem_of_find?_eq_some found) member with rfl | apart
    · rfl
    · rw [same] at apart
      omega

/-- A block that ends leaves a dead range. -/
theorem Layout.dead_remove {heap : Heap} (layout : heap.Layout) {base : Address} {block : Block}
    (found : heap.blockAt? base = some block) : (heap.remove base).Dead base block.size := by
  have member : block ∈ heap.blocks := List.mem_of_find?_eq_some found
  obtain rfl : block.base = base := by simpa using List.find?_some found
  refine ⟨layout.below block member, fun start count purpose alive => ?_⟩
  obtain ⟨⟨other, member', rfl, rfl, rfl⟩, elsewhere⟩ := live_remove.mp alive
  rcases layout.eq_or_apart member' member with rfl | apart
  · exact absurd rfl elsewhere
  · exact apart

/-- Once a request has ended a block, its range is dead whatever was requested since. -/
theorem Run.dead_of_release {past : List (Heap × Request)} {heap : Heap} (run : Run past heap)
    {earlier : Heap} {base : Address} {block : Block} (requested : (earlier, .release base) ∈ past)
    (ended : (earlier.release base).1 = some block) : heap.Dead base block.size := by
  induction run with
  | start => cases requested
  | @step past before request earlier_run _ ih =>
    rcases List.mem_cons.mp requested with latest | older
    · obtain ⟨rfl, rfl⟩ := Prod.mk.inj latest
      have found : earlier.blockAt? base = some block := by
        unfold Heap.release at ended
        split at ended
        · next other found =>
          obtain rfl := Option.some.inj ended
          exact found
        · cases ended
      have dead := earlier_run.layout.dead_remove found
      unfold Heap.after Heap.release
      dsimp only
      rw [found]
      exact dead
    · exact (ih older).after request

end Heap

end CellC
