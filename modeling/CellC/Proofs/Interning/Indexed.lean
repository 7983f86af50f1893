import CellC.Proofs.Interning.Sequences
import Std.Data.HashMap.Lemmas

/-!
# Indexed interning tables

A table need not be searched for an entry if it keeps an index: a map from each entry to its number.
Numbers are words of 32 bits then, and those that would exceed the last word stay at it. As long as
there are no more entries than words, the index is the inverse of the list of entries, and a table
with an index hands out the numbers that a search finds.

## Main definitions

* `IndexedInterner`: a list of entries and an index of them
* `IndexedInterner.Indexes`: the same entries, and an index that is the inverse of their list

## Main results

* `IndexedInterner.Indexes.intern`: interning hands out the same number and keeps the index
* `IndexedInterner.Indexes.after`, `IndexedInterner.Indexes.toNat_answer`: so do requests in
  sequence
-/

namespace CellC

/-- A table of entries with an index of them. -/
structure IndexedInterner (α : Type) [BEq α] [Hashable α] where
  /-- The entries in the order in which they were first stored. -/
  entries : Array α := #[]
  /-- The number of each entry. -/
  numbers : Std.HashMap α UInt32 := {}

namespace IndexedInterner

variable {α β : Type} [BEq α] [Hashable α]

/-- The number of an entry that is stored after `size` others, or the last word. -/
def nextNumber (size : Nat) : UInt32 := .ofNatClamp size

/-- The entry with the given number. -/
def get? (indexed : IndexedInterner α) (number : UInt32) : Option α :=
  indexed.entries[number.toNat]?

/-- The number of `entry` in a table that has it. The index alone tells whether it is new. -/
def intern (indexed : IndexedInterner α) (entry : α) : UInt32 × IndexedInterner α :=
  match indexed.numbers[entry]? with
  | some number => (number, indexed)
  | none =>
    let number := nextNumber indexed.entries.size
    (number, ⟨indexed.entries.push entry, indexed.numbers.insert entry number⟩)

/-- The table after entries were interned one after the other. -/
def internAll (indexed : IndexedInterner α) (entries : List α) : IndexedInterner α :=
  entries.foldl (fun indexed entry => (indexed.intern entry).2) indexed

/-- The table after the first `n` requests. -/
def after (start : IndexedInterner α) (key : β → α) (requests : List β) (n : Nat) :
    IndexedInterner α :=
  start.internAll ((requests.take n).map key)

/-- The number that answers a request. -/
def answer (start : IndexedInterner α) (key : β → α) (requests : List β)
    (i : Fin requests.length) : UInt32 :=
  ((start.after key requests i).intern (key (requests.get i))).1

/-- A table with an index has the entries of one without, and its index is the inverse of their
list. -/
structure Indexes (indexed : IndexedInterner α) (table : Interner α) : Prop where
  entries : indexed.entries = table.entries
  distinct : table.Distinct
  inverse : ∀ entry number,
    indexed.numbers[entry]? = some number ↔ indexed.get? number = some entry

variable {indexed start : IndexedInterner α} {table before : Interner α}

theorem intern_of_some {entry : α} {number : UInt32}
    (there : indexed.numbers[entry]? = some number) :
    indexed.intern entry = (number, indexed) := by
  simp [intern, there]

theorem intern_of_none {entry : α} (new : indexed.numbers[entry]? = none) :
    indexed.intern entry =
      (nextNumber indexed.entries.size, ⟨indexed.entries.push entry,
        indexed.numbers.insert entry (nextNumber indexed.entries.size)⟩) := by
  simp [intern, new]

theorem toNat_nextNumber {size : Nat} (room : size < UInt32.size) :
    (nextNumber size).toNat = size :=
  UInt32.toNat_ofNatClamp_of_lt room

variable [LawfulBEq α]

theorem indexes_empty : Indexes ({} : IndexedInterner α) ⟨#[]⟩ where
  entries := rfl
  distinct i j entry found _ := by simp [Interner.get?] at found
  inverse entry number := by simp [get?]

namespace Indexes

variable (indexes : indexed.Indexes table)
include indexes

omit [LawfulBEq α] in
theorem get?_eq (number : UInt32) : indexed.get? number = table.get? number.toNat := by
  rw [get?, indexes.entries, Interner.get?]

/-- The index tells what a search finds, if every number is a word. -/
theorem find?_eq (room : table.size ≤ UInt32.size) (entry : α) :
    table.find? entry = indexed.numbers[entry]?.map UInt32.toNat := by
  cases there : indexed.numbers[entry]? with
  | some number =>
    have found := (indexes.inverse entry number).mp there
    rw [indexes.get?_eq] at found
    exact indexes.distinct.find?_eq_some_iff.mpr found
  | none =>
    refine Interner.find?_eq_none_iff.mpr fun i found => ?_
    have lt : i < table.size := (Array.getElem?_eq_some_iff.mp found).1
    have word : (UInt32.ofNat i).toNat = i := UInt32.toNat_ofNat_of_lt' (lt.trans_le room)
    have indexedAt : indexed.numbers[entry]? = some (UInt32.ofNat i) := by
      rw [indexes.inverse, indexes.get?_eq, word]
      exact found
    rw [there] at indexedAt
    cases indexedAt

/-- A new entry gets a number of its own, so that the index stays the inverse. -/
theorem push {entry : α} (new : table.find? entry = none) (room : table.size < UInt32.size) :
    Indexes ⟨indexed.entries.push entry,
      indexed.numbers.insert entry (nextNumber indexed.entries.size)⟩
      ⟨table.entries.push entry⟩ := by
  have size : (nextNumber indexed.entries.size).toNat = indexed.entries.size := by
    rw [indexes.entries]
    exact toNat_nextNumber room
  have absent (number : UInt32) : indexed.get? number ≠ some entry := by
    rw [indexes.get?_eq]
    exact Interner.find?_eq_none_iff.mp new _
  refine ⟨by rw [indexes.entries], ?_, fun other number => ?_⟩
  · have distinct : (table.intern entry).2.Distinct := indexes.distinct.intern
    rwa [Interner.intern_of_find?_none new] at distinct
  · have last_iff : number.toNat = indexed.entries.size ↔
        number = nextNumber indexed.entries.size := by
      rw [← UInt32.toNat_inj, size]
    show (indexed.numbers.insert entry _)[other]? = _ ↔
      (indexed.entries.push entry)[number.toNat]? = _
    rw [Std.HashMap.getElem?_insert, Array.getElem?_push]
    by_cases same : entry = other
    · subst same
      rw [if_pos BEq.rfl]
      by_cases last : number = nextNumber indexed.entries.size
      · rw [if_pos (last_iff.mpr last), last]
        exact iff_of_true rfl rfl
      · rw [if_neg (mt last_iff.mp last)]
        exact iff_of_false (fun there => last (Option.some.inj there).symm) (absent number)
    · rw [if_neg (by simpa using same)]
      by_cases last : number = nextNumber indexed.entries.size
      · rw [if_pos (last_iff.mpr last), indexes.inverse, get?, last_iff.mpr last]
        exact iff_of_false (by simp) (fun there => same (Option.some.inj there))
      · rw [if_neg (mt last_iff.mp last)]
        exact indexes.inverse other number

/-- Interning hands out the same number and keeps the index, if every number is a word. -/
theorem intern (entry : α) (room : (table.intern entry).2.size ≤ UInt32.size) :
    (indexed.intern entry).1.toNat = (table.intern entry).1 ∧
      (indexed.intern entry).2.Indexes (table.intern entry).2 := by
  have before : table.size ≤ UInt32.size := (Interner.size_le_intern table entry).trans room
  have found := indexes.find?_eq before entry
  cases there : indexed.numbers[entry]? with
  | some number =>
    rw [there, Option.map_some] at found
    rw [intern_of_some there, Interner.intern_of_find? found]
    exact ⟨rfl, indexes⟩
  | none =>
    rw [there, Option.map_none] at found
    rw [Interner.intern_of_find?_none found] at room ⊢
    rw [intern_of_none there]
    have lt : table.size < UInt32.size := by
      rwa [Interner.size, Array.size_push] at room
    exact ⟨by rw [indexes.entries]; exact toNat_nextNumber lt, indexes.push found lt⟩

theorem internAll (entries : List α) (room : (table.internAll entries).size ≤ UInt32.size) :
    (indexed.internAll entries).Indexes (table.internAll entries) := by
  induction entries generalizing indexed table with
  | nil => exact indexes
  | cons entry entries ih =>
    have first : (table.intern entry).2.size ≤ UInt32.size :=
      (Interner.size_le_internAll _ entries).trans room
    exact ih (indexes.intern entry first).2 room

end Indexes

/-! ### Requests -/

section Requests

variable [DecidableEq α] {key : β → α} {requests : List β}

/-- Requests keep the index, if they are for no more distinct entries than there are words. -/
theorem Indexes.after (indexes : start.Indexes before)
    (few : (before.entries.toList ++ requests.map key).toFinset.card ≤ UInt32.size) (n : Nat) :
    (start.after key requests n).Indexes (before.after key requests n) :=
  indexes.internAll _ ((Interner.size_after_le_card indexes.distinct n).trans few)

/-- Each request is answered with the same number. -/
theorem Indexes.toNat_answer (indexes : start.Indexes before)
    (few : (before.entries.toList ++ requests.map key).toFinset.card ≤ UInt32.size)
    (i : Fin requests.length) :
    (start.answer key requests i).toNat = before.answer key requests i := by
  have room : (before.after key requests (i + 1)).size ≤ UInt32.size :=
    (Interner.size_after_le_card indexes.distinct _).trans few
  rw [Interner.after_succ] at room
  exact ((indexes.after few i).intern _ room).1

end Requests

end IndexedInterner

end CellC
