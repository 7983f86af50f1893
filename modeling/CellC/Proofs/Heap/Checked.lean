import CellC.Proofs.Heap.Gaps
import Mathlib.Tactic.IntervalCases
import Mathlib.Tactic.NormNum

/-!
# Checked accesses

Accesses to memory with a check before every step that could leave its range: a difference must not
go below zero, a piece of an array must lie within the array, and a cell must not be shifted by as
many bits as it has. No check ever fails, so checked accesses are the same as accesses.

## Main definitions

* `difference?`, `piece?`, `Cell.shiftedBack?`: steps that could leave their range
* `Heap.findChecked`, `Heap.loadChecked`, `Heap.storeChecked`: accesses made of such steps

## Main results

* `Heap.loadChecked_eq`, `Heap.storeChecked_eq`: no check fails
-/

namespace CellC

/-! ### Steps -/

/-- A difference that does not go below zero. -/
def difference? (a b : Nat) : Option Nat := if b ≤ a then some (a - b) else none

/-- The bytes from one position up to another, both within the array. -/
def piece? (bytes : Array UInt8) (start stop : Nat) : Option (List UInt8) :=
  if start ≤ stop ∧ stop ≤ bytes.size then some (bytes.extract start stop).toList else none

/-- A cell shifted up by fewer bits than it has and down again, which extends the sign of what is at
its low end. -/
def Cell.shiftedBack? (cell : Cell) (shift : Nat) : Option Cell :=
  if shift < 64 then some (Int64.ofBitVec ((cell.toBitVec <<< shift).sshiftRight shift)) else none

theorem difference?_of_le {a b : Nat} (le : b ≤ a) : difference? a b = some (a - b) := if_pos le

theorem piece?_of_le {bytes : Array UInt8} {start stop : Nat} (le : start ≤ stop)
    (le' : stop ≤ bytes.size) : piece? bytes start stop = some (bytes.extract start stop).toList :=
  if_pos ⟨le, le'⟩

/-! ### Numbers as bytes -/

theorem natOfBytes_append_replicate (bytes : List UInt8) (count : Nat) :
    natOfBytes (bytes ++ List.replicate count 0) = natOfBytes bytes := by
  induction bytes with
  | nil =>
    induction count with
    | zero => rfl
    | succ count ih => simpa [List.replicate_succ, natOfBytes] using ih
  | cons byte bytes ih => simp only [List.cons_append, natOfBytes, ih]

theorem take_bytesOfNat {width count : Nat} (le : width ≤ count) (n : Nat) :
    (bytesOfNat count n).take width = bytesOfNat width n := by
  refine List.ext_getElem? fun i => ?_
  rw [List.getElem?_take, getElem?_bytesOfNat, getElem?_bytesOfNat]
  by_cases within : i < width
  · rw [if_pos within, if_pos within, if_pos (Nat.lt_of_lt_of_le within le)]
  · rw [if_neg within, if_neg within]

/-- Shifting up cuts off what does not fit into a cell, and shifting down again extends the sign. -/
theorem bmod_shiftLeft_shiftRight {n width : Nat} (pos : 1 ≤ width) (le : width ≤ 8)
    (lt : n < byteRange width) :
    ((n <<< (64 - 8 * width) : Nat) : Int).bmod (2 ^ 64) >>> (64 - 8 * width) =
      (n : Int).bmod (byteRange width) := by
  rw [Int.shiftRight_eq_div_pow, Nat.shiftLeft_eq, Int.bmod_def, Int.bmod_def]
  interval_cases width <;> simp only [byteRange] at lt ⊢ <;> norm_num <;> split <;> split <;> omega

/-- Bytes that are put at the low end of a cell stand for the cell that shifting makes of it. -/
theorem shiftedBack?_ofNat (bytes : List UInt8) (pos : 1 ≤ bytes.length)
    (le : bytes.length ≤ 8) :
    Cell.shiftedBack? (Int64.ofNat (natOfBytes bytes)) (64 - 8 * bytes.length) =
      some (Cell.ofBytes bytes) := by
  have lt := natOfBytes_lt bytes
  have fits : natOfBytes bytes < 2 ^ 64 := by
    have range := byteRange_le bytes.length (8 - bytes.length)
    rw [Nat.add_sub_cancel' le] at range
    exact Nat.lt_of_lt_of_le lt range
  unfold Cell.shiftedBack?
  rw [if_pos (by omega)]
  refine congrArg some (Int64.toInt_inj.mp ?_)
  rw [Cell.toInt_ofBytes le, Int64.toInt_ofBitVec, BitVec.toInt_sshiftRight, BitVec.toInt_shiftLeft,
    Int64.toBitVec_ofNat', BitVec.toNat_ofNat, Nat.mod_eq_of_lt fits]
  exact bmod_shiftLeft_shiftRight pos le lt

/-! ### Accesses -/

namespace Heap

variable (heap : Heap) (address : Address)

/-- The block and the offset of an access, with the offset checked. -/
def findChecked (width : Nat) : Option (Except Fault (Block × Nat)) :=
  match heap.blocks.find? (·.base.toNat ≤ address.toNat) with
  | some block => do
    let start ← difference? address.toNat block.base.toNat
    pure (if start + width ≤ block.size then .ok (block, start) else .error (.badAddress address))
  | none => pure (.error (.badAddress address))

/-- A load in which the bytes that are read fill the low end of a cell, whose sign is extended. -/
def loadChecked (width : Nat) : Option (Except Fault Cell) := do
  let width := accessWidth width
  match ← heap.findChecked address width with
  | .error fault => pure (.error fault)
  | .ok (block, start) => do
    let bytes ← piece? block.bytes start (start + width)
    let free ← difference? 8 width
    let shift ← difference? 64 (8 * width)
    let cell ← Cell.shiftedBack? (Int64.ofNat (natOfBytes (bytes ++ List.replicate free 0))) shift
    pure (.ok cell)

/-- A store in which the low bytes of a cell replace bytes of the block that is looked up again. -/
def storeChecked (width : Nat) (cell : Cell) : Option (Except Fault Heap) := do
  let width := accessWidth width
  match ← heap.findChecked address width with
  | .error fault => pure (.error fault)
  | .ok (_, start) =>
    match (heap.baseOf? address).bind heap.blockAt? with
    | none => pure (.error (.badAddress address))
    | some block => do
      let _ ← piece? block.bytes start (start + width)
      let new ← piece? (cell.toBytes 8).toArray 0 width
      pure (.ok (heap.write block.base start new))

variable {heap address}

/-- What is found lies within its block. -/
theorem within_of_find {width start : Nat} {block : Block}
    (found : heap.find address width = .ok (block, start)) : start + width ≤ block.bytes.size := by
  obtain ⟨-, ⟨above, within⟩, rfl⟩ := contains_of_find found
  unfold Block.size at within
  omega

theorem chosen_of_find {width start : Nat} {block : Block}
    (found : heap.find address width = .ok (block, start)) :
    heap.blocks.find? (·.base.toNat ≤ address.toNat) = some block := by
  unfold find at found
  split at found
  · next candidate chosen =>
    dsimp only at found
    split at found <;> cases found
    exact chosen
  · cases found

/-- The block with the greatest base at or below an address is found again by its base. -/
theorem blockAt?_baseOf? {block : Block}
    (chosen : heap.blocks.find? (·.base.toNat ≤ address.toNat) = some block) :
    (heap.baseOf? address).bind heap.blockAt? = some block := by
  obtain ⟨below, before, after, split, others⟩ := List.find?_eq_some_iff_append.mp chosen
  unfold baseOf?
  rw [chosen, Option.map_some, Option.bind_some]
  refine List.find?_eq_some_iff_append.mpr ⟨by simp, before, after, split, fun other member => ?_⟩
  have beyond := others other member
  have below := of_decide_eq_true below
  simp only [Bool.not_eq_true', decide_eq_false_iff_not] at beyond ⊢
  rintro same
  exact beyond (same ▸ below)

theorem findChecked_eq (width : Nat) :
    heap.findChecked address width = some (heap.find address width) := by
  unfold findChecked find
  cases chosen : heap.blocks.find? (·.base.toNat ≤ address.toNat) with
  | none => rfl
  | some block =>
    have below := List.find?_some chosen
    dsimp only
    rw [difference?_of_le (of_decide_eq_true below)]
    rfl

/-- No check of a load fails. -/
theorem loadChecked_eq (width : Nat) :
    heap.loadChecked address width = some (heap.load address width) := by
  have pos := accessWidth_pos width
  have le := accessWidth_le width
  unfold loadChecked load
  dsimp only
  rw [findChecked_eq]
  cases found : heap.find address (accessWidth width) with
  | error fault => rfl
  | ok place =>
    obtain ⟨block, start⟩ := place
    have within := within_of_find found
    dsimp only [Option.bind_eq_bind, Option.bind_some]
    rw [piece?_of_le (Nat.le_add_right _ _) within, difference?_of_le le,
      difference?_of_le (by omega)]
    dsimp only [Option.bind_some]
    have length : (block.bytes.extract start (start + accessWidth width)).toList.length =
        accessWidth width := by
      simp
      omega
    have extended := shiftedBack?_ofNat
      (block.bytes.extract start (start + accessWidth width)).toList
      (by rw [length]; exact pos) (by rw [length]; exact le)
    rw [length] at extended
    rw [natOfBytes_append_replicate, extended]
    rfl

/-- No check of a store fails. -/
theorem storeChecked_eq (width : Nat) (cell : Cell) :
    heap.storeChecked address width cell = some (heap.store address width cell) := by
  have le := accessWidth_le width
  unfold storeChecked
  dsimp only
  rw [findChecked_eq]
  cases found : heap.find address (accessWidth width) with
  | error fault =>
    unfold store
    rw [found]
    rfl
  | ok place =>
    obtain ⟨block, start⟩ := place
    have within := within_of_find found
    have again := blockAt?_baseOf? (chosen_of_find found)
    have bytes : piece? (cell.toBytes 8).toArray 0 (accessWidth width) =
        some (cell.toBytes (accessWidth width)) := by
      rw [piece?_of_le (Nat.zero_le _) (by simpa using le)]
      simpa [Cell.toBytes] using take_bytesOfNat le cell.toUInt64.toNat
    dsimp only [Option.bind_eq_bind, Option.bind_some]
    rw [again, store_of_find found]
    dsimp only
    rw [piece?_of_le (Nat.le_add_right _ _) within, bytes]
    rfl

end Heap

end CellC
