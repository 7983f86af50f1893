import CellC.Proofs.Heap.Order
import CellC.Proofs.Returns
import Mathlib.Data.List.Induction

/-!
# Fresh allocations

Whatever a heap was asked for before, and however much of the address space that took, a new block
is placed where no block lives, unless the next address is the last one. That is so from the first
allocation on that reached the end of the address space, and from then on every new block is placed
at the last address: in place of the block before, if that one still lives.

## Main definitions

* `Heap.afterAll`: the heap after any requests, with or without room
* `Heap.Behind`: as long as the next address is not the last one, all live blocks start below it
* `Heap.churn`: blocks that are made and ended one after the other

## Main results

* `Heap.next_afterAll_eq_iff`: when the next address is the last one
* `Heap.allocation_fresh_below_last`: a new block is fresh, or it replaces one at the last address
* `Heap.allocation_replaces_live_block`: a heap in which the next allocation replaces a live block
-/

namespace CellC

namespace Heap

/-- The heap after requests to an empty one, the earliest first. -/
def afterAll (requests : List Request) : Heap := requests.foldl after {}

theorem afterAll_append (requests more : List Request) :
    afterAll (requests ++ more) = more.foldl after (afterAll requests) :=
  List.foldl_append

theorem afterAll_concat (requests : List Request) (request : Request) :
    afterAll (requests ++ [request]) = (afterAll requests).after request :=
  afterAll_append requests [request]

/-- As long as the next address is not the last one, all live blocks start below it. -/
def Behind (heap : Heap) : Prop :=
  heap.next.toNat < maxWord → ∀ block ∈ heap.blocks, block.base.toNat < heap.next.toNat

variable {heap newer : Heap} {size : Cell} {purpose : Purpose} {base : Address}

/-! ### One allocation -/

/-- What an allocation makes of a heap: the new block takes the place of one at the next address. -/
theorem allocate_eq_ok (made : heap.allocate size purpose = .ok (base, newer)) :
    0 ≤ size.toInt ∧ size.toInt ≤ maxBlock ∧ base = heap.next ∧
      newer = {
        blocks := { base := heap.next, purpose, bytes := Array.replicate size.toInt.toNat 0 } ::
          (heap.remove heap.next).blocks
        next := following heap.next size.toInt.toNat } := by
  unfold allocate at made
  split at made
  · next fits =>
    cases made
    exact ⟨fits.1, fits.2, rfl, rfl⟩
  · cases made

/-- Where no block lives, the new block joins the others. -/
theorem blocks_of_vacant (made : heap.allocate size purpose = .ok (base, newer))
    (vacant : heap.blockAt? base = none) :
    newer.blocks = { base, purpose, bytes := Array.replicate size.toInt.toNat 0 } ::
      heap.blocks := by
  obtain ⟨-, -, rfl, rfl⟩ := allocate_eq_ok made
  rw [remove_eq_self vacant]

/-- Where no two blocks start at one address, a block that is removed is one less. -/
theorem count_remove (distinct : (heap.blocks.map Block.base).Nodup) {block : Block}
    (found : heap.blockAt? base = some block) : (heap.remove base).count + 1 = heap.count := by
  obtain ⟨member, rfl⟩ := mem_of_blockAt? found
  have others : (heap.remove block.base).blocks = heap.blocks.erase block := by
    rw [(List.Nodup.of_map _ distinct).erase_eq_filter]
    refine List.filter_congr fun other there => ?_
    have same : other.base = block.base ↔ other = block :=
      ⟨List.inj_on_of_nodup_map distinct there member, congrArg Block.base⟩
    by_cases equal : other = block
    · simp [equal]
    · simp [mt same.mp equal, equal]
  unfold count
  rw [others, List.length_erase_of_mem member]
  exact Nat.sub_add_cancel (List.length_pos_of_mem member)

theorem Behind.blockAt?_next (behind : heap.Behind) (last : heap.next.toNat < maxWord) :
    heap.blockAt? heap.next = none := by
  refine List.find?_eq_none.mpr fun block member => ?_
  have below := behind last block member
  simp only [decide_eq_true_eq]
  intro same
  rw [same] at below
  exact Nat.lt_irrefl _ below

/-! ### All requests -/

theorem Behind.allocate (behind : heap.Behind)
    (made : heap.allocate size purpose = .ok (base, newer)) : newer.Behind := by
  obtain ⟨-, -, -, rfl⟩ := allocate_eq_ok made
  intro last block member
  have next := toNat_following (toNat_following_lt_iff.mp last)
  dsimp only
  rw [next]
  rcases List.mem_cons.mp member with rfl | old
  · dsimp only
    omega
  · have within := toNat_following_lt_iff.mp last
    have below := behind (by omega) block (List.mem_filter.mp old).1
    omega

theorem Behind.remove (behind : heap.Behind) (address : Address) : (heap.remove address).Behind :=
  fun last block member => behind last block (List.mem_filter.mp member).1

theorem Behind.write (behind : heap.Behind) (address : Address) (start : Nat) (new : List UInt8) :
    (heap.write address start new).Behind := by
  intro last block member
  have there : block.base ∈ heap.blocks.map Block.base := by
    rw [← map_base_overlayAt address start new]
    exact List.mem_map_of_mem member
  obtain ⟨old, member, same⟩ := List.mem_map.mp there
  exact same ▸ behind last old member

/-- Every request leaves the live blocks below the next address, whether it finds room or not. -/
theorem Behind.after (behind : heap.Behind) (request : Request) : (heap.after request).Behind := by
  cases request with
  | allocate size purpose =>
    unfold Heap.after
    dsimp only
    cases made : heap.allocate size purpose with
    | error fault => exact behind
    | ok answer => exact behind.allocate made
  | release address =>
    unfold Heap.after Heap.release
    dsimp only
    split
    · exact behind.remove address
    · exact behind
  | load address width => exact behind
  | store address width cell =>
    unfold Heap.after
    dsimp only
    cases stored : heap.store address width cell with
    | error fault => exact behind
    | ok answer =>
      obtain ⟨block, start, -, rfl⟩ := store_eq_ok stored
      exact behind.write _ _ _

/-- A property of the empty heap that every request keeps holds after any requests. -/
theorem afterAll_induction {P : Heap → Prop} (empty : P {})
    (step : ∀ heap request, P heap → P (heap.after request)) (requests : List Request) :
    P (afterAll requests) := by
  induction requests using List.reverseRecOn with
  | nil => exact empty
  | append_singleton requests request ih =>
    rw [afterAll_concat]
    exact step _ request ih

theorem behind_afterAll (requests : List Request) : (afterAll requests).Behind :=
  afterAll_induction (fun _ block member => by cases member) (fun _ request h => h.after request)
    requests

theorem ordered_afterAll (requests : List Request) : (afterAll requests).Ordered :=
  afterAll_induction .empty (fun _ request h => h.after request) requests

/-! ### The last address -/

/-- A request leads to the last address if the next address is that one already, or if it is an
allocation that finds no room. -/
theorem next_after_eq_iff (request : Request) :
    (heap.after request).next.toNat = maxWord ↔
      heap.next.toNat = maxWord ∨ ¬ heap.HasRoom request := by
  have within := heap.next.toNat_le_maxWord
  have still (after : Heap) (next : after.next = heap.next) :
      after.next.toNat = maxWord ↔ heap.next.toNat = maxWord ∨ ¬ True := by
    rw [next]
    simp
  cases request with
  | allocate size purpose =>
    unfold Heap.after HasRoom Heap.allocate
    dsimp only
    by_cases fits : 0 ≤ size.toInt ∧ size.toInt ≤ maxBlock
    · rw [if_pos fits]
      dsimp only
      have reached := (following heap.next size.toInt.toNat).toNat_le_maxWord
      have room := @toNat_following_lt_iff heap.next size.toInt.toNat
      constructor
      · intro last
        exact .inr fun lasts => by have := room.mpr (lasts fits.1 fits.2); omega
      · rintro (last | full)
        · exact toNat_following_of_lt (by omega)
        · refine toNat_following_of_lt (Nat.lt_of_not_le fun lasts => full fun _ _ => lasts)
    · rw [if_neg fits]
      dsimp only
      have granted : 0 ≤ size.toInt → size.toInt ≤ maxBlock →
          heap.next.toNat + size.toInt.toNat + 15 ≤ maxWord :=
        fun low high => absurd ⟨low, high⟩ fits
      simp only [not_true_eq_false, or_false, iff_true_intro granted]
  | release address =>
    refine still _ ?_
    unfold Heap.after Heap.release
    dsimp only
    split <;> rfl
  | load address width => exact still heap rfl
  | store address width cell =>
    refine still _ ?_
    unfold Heap.after
    dsimp only
    cases stored : heap.store address width cell with
    | error fault => rfl
    | ok answer =>
      obtain ⟨block, start, -, rfl⟩ := store_eq_ok stored
      rfl

/-- The next address is the last one exactly if some earlier allocation found no room. -/
theorem next_afterAll_eq_iff (requests : List Request) :
    (afterAll requests).next.toNat = maxWord ↔
      ∃ earlier request later, requests = earlier ++ request :: later ∧
        ¬ (afterAll earlier).HasRoom request := by
  induction requests using List.reverseRecOn with
  | nil => simp [afterAll, maxWord, Address.toNat]
  | append_singleton requests request ih =>
    rw [afterAll_concat, next_after_eq_iff, ih]
    constructor
    · rintro (⟨earlier, other, later, rfl, full⟩ | full)
      · exact ⟨earlier, other, later ++ [request], by simp, full⟩
      · exact ⟨requests, request, [], rfl, full⟩
    · rintro ⟨earlier, other, later, same, full⟩
      cases later using List.reverseRecOn with
      | nil =>
        obtain ⟨rfl, last⟩ := List.append_inj' same rfl
        cases last
        exact .inr full
      | append_singleton later final =>
        rw [← List.cons_append, ← List.append_assoc] at same
        obtain ⟨rfl, -⟩ := List.append_inj' same rfl
        exact .inl ⟨earlier, other, later, rfl, full⟩

/-! ### Fresh blocks -/

/-- A new block that starts where no block lived and joins all that did. -/
structure Fresh (heap newer : Heap) (base : Address) : Prop where
  vacant : heap.blockAt? base = none
  count : newer.count = heap.count + 1
  kept : ∀ block ∈ heap.blocks, block ∈ newer.blocks

/-- A new block at the last address that took the place of the one before. -/
structure Replacing (heap newer : Heap) (base : Address) : Prop where
  last : base.toNat = maxWord
  taken : ∃ block, heap.blockAt? base = some block
  count : newer.count = heap.count
  others : ∀ block ∈ heap.blocks, block.base ≠ base → block ∈ newer.blocks

theorem fresh_of_vacant (made : heap.allocate size purpose = .ok (base, newer))
    (vacant : heap.blockAt? base = none) : Fresh heap newer base := by
  have joined := blocks_of_vacant made vacant
  refine ⟨vacant, ?_, fun block member => ?_⟩
  · unfold count
    rw [joined, List.length_cons]
  · rw [joined]
    exact List.mem_cons_of_mem _ member

theorem replacing_of_found (ordered : heap.Ordered) (behind : heap.Behind)
    (made : heap.allocate size purpose = .ok (base, newer)) {block : Block}
    (found : heap.blockAt? base = some block) : Replacing heap newer base := by
  obtain ⟨-, -, rfl, rfl⟩ := allocate_eq_ok made
  refine ⟨?_, ⟨block, found⟩, count_remove ordered.nodup found, fun other member apart => ?_⟩
  · rcases Nat.lt_or_ge heap.next.toNat maxWord with last | reached
    · rw [behind.blockAt?_next last] at found
      cases found
    · exact Nat.le_antisymm heap.next.toNat_le_maxWord reached
  · exact List.mem_cons_of_mem _ (List.mem_filter.mpr ⟨member, by simpa using apart⟩)

/-- Whatever a heap was asked for before, an allocation that succeeds yields a fresh block, or it
replaces the block at the last address. The next address comes to be the last one with the first
allocation that reaches the end of the address space, and not before. An allocation that fails
changes nothing. -/
theorem allocation_fresh_below_last (requests : List Request) (size : Cell) (purpose : Purpose) :
    (∀ base newer, (afterAll requests).allocate size purpose = .ok (base, newer) →
      base = (afterAll requests).next ∧
        (Fresh (afterAll requests) newer base ∨ Replacing (afterAll requests) newer base)) ∧
    ((afterAll requests).next.toNat = maxWord ↔
      ∃ earlier request later, requests = earlier ++ request :: later ∧
        ¬ (afterAll earlier).HasRoom request) ∧
    ∀ fault (state : State), state.heap = afterAll requests →
      (afterAll requests).allocate size purpose = .error fault →
      (Action.allocate size purpose).run state = .error (.fault fault) state := by
  refine ⟨fun base newer made => ⟨(next_eq_of_allocate made).1, ?_⟩,
    next_afterAll_eq_iff requests, fun fault state same refused => ?_⟩
  · cases found : (afterAll requests).blockAt? base with
    | none => exact .inl (fresh_of_vacant made found)
    | some block =>
      exact .inr (replacing_of_found (ordered_afterAll requests) (behind_afterAll requests) made
        found)
  · rw [Action.run_allocate, same, refused]

/-- A block that was made and ended, and one that lives. -/
def twoMade : List Request :=
  [.allocate 8 .explicit, .release (.ofNat firstAddress), .allocate 16 .array]

/-- The third block is placed behind the second one, not where the first one was. A block of a
negative size is refused. -/
theorem allocation_fresh_below_last_twoMade :
    (∃ newer, (afterAll twoMade).allocate 24 .explicit = .ok (.ofNat 0x10000028, newer) ∧
      (Fresh (afterAll twoMade) newer (.ofNat 0x10000028) ∨
        Replacing (afterAll twoMade) newer (.ofNat 0x10000028))) ∧
    (Action.allocate (-1) .array).run { heap := afterAll twoMade } =
      .error (.fault (.badSize (-1))) { heap := afterAll twoMade } :=
  ⟨⟨_, rfl, ((allocation_fresh_below_last twoMade 24 .explicit).1 _ _ rfl).2⟩,
    (allocation_fresh_below_last twoMade (-1) .array).2.2 _ _ rfl rfl⟩

/-! ### The end of the address space -/

/-- The last address. -/
def lastAddress : Address := .ofNat maxWord

theorem following_eq_lastAddress {base : Address} {size : Nat}
    (full : maxWord < base.toNat + size + 15) : following base size = lastAddress := by
  have same : (following base size).toNat = lastAddress.toNat := by
    rw [toNat_following_of_lt full, lastAddress, Address.toNat_ofNat_of_le (Nat.le_refl _)]
  exact congrArg Address.mk (UInt64.toNat_inj.mp same)

/-- The size of the blocks that use up the address space. -/
def mebibyte : Cell := 0x100000

/-- The distance from one such block to the next. -/
def mebibyteSpacing : Nat := 0x100008

/-- Blocks that are made and ended one after the other. -/
def churn (rounds : Nat) : List Request :=
  (List.range rounds).flatMap fun round =>
    [.allocate mebibyte .explicit, .release (.ofNat (firstAddress + round * mebibyteSpacing))]

/-- A round leaves nothing but the next address behind. -/
theorem after_round (next : Address) :
    (({ next } : Heap).after (.allocate mebibyte .explicit)).after (.release next) =
      { next := following next 0x100000 } := by
  have made : ({ next } : Heap).allocate mebibyte .explicit =
      .ok (next, {
        blocks := [{ base := next, purpose := .explicit, bytes := Array.replicate 0x100000 0 }]
        next := following next 0x100000 }) := by
    unfold allocate
    rw [if_pos (by decide)]
    rfl
  unfold after
  dsimp only
  rw [made]
  simp [release, blockAt?, remove]

theorem churn_succ (rounds : Nat) :
    afterAll (churn (rounds + 1)) =
      ((afterAll (churn rounds)).after (.allocate mebibyte .explicit)).after
        (.release (.ofNat (firstAddress + rounds * mebibyteSpacing))) := by
  unfold churn
  rw [List.range_succ, List.flatMap_append, afterAll_append]
  rfl

/-- Every round uses up its share of the address space, as long as that lasts. -/
theorem afterAll_churn {rounds : Nat}
    (room : firstAddress + rounds * mebibyteSpacing ≤ maxWord - 7) :
    afterAll (churn rounds) =
      { next := .ofNat (firstAddress + rounds * mebibyteSpacing) } := by
  induction rounds with
  | zero => rfl
  | succ rounds ih =>
    have room' : firstAddress + rounds * mebibyteSpacing + mebibyteSpacing ≤ maxWord - 7 := by
      rwa [Nat.succ_mul, ← Nat.add_assoc] at room
    rw [churn_succ, ih (by omega), after_round]
    congr 1
    unfold following
    rw [Address.toNat_ofNat_of_le (by omega)]
    dsimp only
    congr 1
    unfold firstAddress maxWord mebibyteSpacing alignment gap at *
    omega

/-- One round more than there is room for leaves no address but the last one. -/
theorem afterAll_churn_eq_last : afterAll (churn 17592051827456) = { next := lastAddress } := by
  rw [churn_succ, afterAll_churn (by decide), after_round, following_eq_lastAddress]
  rw [Address.toNat_ofNat_of_le (by decide)]
  decide

/-- All the rounds for which there is room, one more, and a block that lives. -/
def exhausting : List Request := churn 17592051827456 ++ [.allocate 8 .explicit]

/-- The block at the last address. -/
def lastBlock : Block :=
  { base := lastAddress, purpose := .explicit, bytes := Array.replicate 8 0 }

theorem afterAll_exhausting :
    afterAll exhausting = { blocks := [lastBlock], next := lastAddress } := by
  rw [exhausting, afterAll_concat, afterAll_churn_eq_last]
  rfl

/-- In a heap that made and ended blocks until no address was left, one block lives. The next
allocation replaces it: it succeeds with the address of that block, the number of blocks stays, and
the block that lived is gone. -/
theorem allocation_replaces_live_block :
    (afterAll exhausting).blockAt? lastAddress = some lastBlock ∧
      (afterAll exhausting).count = 1 ∧
      ∃ newer, (afterAll exhausting).allocate 16 .explicit = .ok (lastAddress, newer) ∧
        newer.count = 1 ∧ lastBlock ∉ newer.blocks := by
  rw [afterAll_exhausting]
  refine ⟨by decide, rfl, _, rfl, rfl, by decide⟩

end Heap

end CellC
