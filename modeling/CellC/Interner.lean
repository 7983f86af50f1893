/-!
# Interning tables

A table that stores each of its entries once and names it by the position at which it was first
stored. Interning an entry that is already there gives back its old position.

## Main definitions

* `Interner.intern`: the position of an entry, which is stored first if it is new
* `Interner.get?`: the entry at a position
* `Interner.Distinct`: no entry is stored twice

## Main results

* `get?_intern_self`: the position handed out for an entry names that entry
* `get?_intern_of_some`: a position handed out before keeps its entry
* `find?_of_kept`: an entry is found where it was found before
* `Distinct.intern`: interning stores no entry twice
-/

namespace CellC

/-- A table of entries, each named by its position. -/
structure Interner (α : Type) where
  /-- The entries in the order in which they were first stored. -/
  entries : Array α := #[]
deriving DecidableEq

namespace Interner

variable {α : Type}

/-- The number of entries. -/
def size (table : Interner α) : Nat := table.entries.size

/-- The entry at position `i`. -/
def get? (table : Interner α) (i : Nat) : Option α := table.entries[i]?

/-- The position of `entry`, if it is stored. -/
def find? [BEq α] (table : Interner α) (entry : α) : Option Nat :=
  table.entries.findIdx? (· == entry)

/-- The position of `entry` in a table that has it, which is `table` itself where possible. -/
def intern [BEq α] (table : Interner α) (entry : α) : Nat × Interner α :=
  match table.find? entry with
  | some i => (i, table)
  | none => (table.size, ⟨table.entries.push entry⟩)

variable [BEq α] {table : Interner α} {entry : α}

theorem intern_of_find? {i : Nat} (h : table.find? entry = some i) :
    table.intern entry = (i, table) := by
  simp [intern, h]

theorem intern_of_find?_none (h : table.find? entry = none) :
    table.intern entry = (table.size, ⟨table.entries.push entry⟩) := by
  simp [intern, h]

/-- A position handed out before keeps its entry. -/
theorem get?_intern_of_some {i : Nat} {old : α} (h : table.get? i = some old) :
    (table.intern entry).2.get? i = some old := by
  cases hf : table.find? entry with
  | some j => rw [intern_of_find? hf]; exact h
  | none =>
    rw [intern_of_find?_none hf]
    obtain ⟨hi, rfl⟩ := Array.getElem?_eq_some_iff.1 h
    simp [get?, Array.getElem_push_lt hi, Nat.lt_succ_of_lt hi]

variable [LawfulBEq α]

theorem get?_of_find? {i : Nat} (h : table.find? entry = some i) : table.get? i = some entry := by
  obtain ⟨hi, heq, -⟩ := Array.findIdx?_eq_some_iff_getElem.1 h
  simpa [get?, hi] using heq

theorem find?_eq_none_iff : table.find? entry = none ↔ ∀ i, table.get? i ≠ some entry := by
  simp only [find?, get?, Array.findIdx?_eq_none_iff]
  constructor
  · intro h i hi
    obtain ⟨hlt, rfl⟩ := Array.getElem?_eq_some_iff.1 hi
    simpa using h _ (Array.getElem_mem hlt)
  · intro h x hx
    obtain ⟨i, hi, rfl⟩ := Array.getElem_of_mem hx
    simpa using fun he => h i (by simp [hi, he])

/-- The position handed out for an entry names that entry. -/
theorem get?_intern_self : (table.intern entry).2.get? (table.intern entry).1 = some entry := by
  cases h : table.find? entry with
  | some i => rw [intern_of_find? h]; exact get?_of_find? h
  | none => rw [intern_of_find?_none h]; simp [get?, size]

/-! ### Where entries are found -/

/-- An entry is found at the first position that names it. -/
theorem find?_eq_some_iff {i : Nat} :
    table.find? entry = some i ↔
      table.get? i = some entry ∧ ∀ j < i, table.get? j ≠ some entry := by
  unfold find? get?
  rw [Array.findIdx?_eq_some_iff_getElem]
  constructor
  · rintro ⟨lt, here, first⟩
    refine ⟨Array.getElem?_eq_some_iff.2 ⟨lt, beq_iff_eq.1 here⟩, fun j before there => ?_⟩
    obtain ⟨lt', there⟩ := Array.getElem?_eq_some_iff.1 there
    exact first j before (beq_iff_eq.2 there)
  · rintro ⟨here, first⟩
    obtain ⟨lt, here⟩ := Array.getElem?_eq_some_iff.1 here
    refine ⟨lt, beq_iff_eq.2 here, fun j before there => first j before ?_⟩
    exact Array.getElem?_eq_some_iff.2 ⟨Nat.lt_trans before lt, beq_iff_eq.1 there⟩

/-- Where a table keeps what it has handed out, an entry is found where it was found before. -/
theorem find?_of_kept {later : Interner α} {i : Nat}
    (kept : ∀ j stored, table.get? j = some stored → later.get? j = some stored)
    (found : table.find? entry = some i) : later.find? entry = some i := by
  obtain ⟨here, first⟩ := find?_eq_some_iff.1 found
  refine find?_eq_some_iff.2 ⟨kept i entry here, fun j before there => first j before ?_⟩
  obtain ⟨lt, -⟩ := Array.getElem?_eq_some_iff.1 here
  have stored : table.get? j = some table.entries[j] :=
    Array.getElem?_eq_getElem (Nat.lt_trans before lt)
  rw [stored, ← kept j _ stored, there]

/-- An interned entry is found at the position that was handed out for it. -/
theorem find?_intern_self : (table.intern entry).2.find? entry = some (table.intern entry).1 := by
  refine find?_eq_some_iff.2 ⟨get?_intern_self, fun j before there => ?_⟩
  cases h : table.find? entry with
  | some i =>
    rw [intern_of_find? h] at before there
    exact (find?_eq_some_iff.1 h).2 j before there
  | none =>
    rw [intern_of_find?_none h] at before there
    refine find?_eq_none_iff.1 h j ?_
    unfold get? at there ⊢
    rwa [Array.getElem?_push_lt before, ← Array.getElem?_eq_getElem before] at there

omit [LawfulBEq α] in
/-- What is in the table after an entry was interned was there before, or is the new entry. -/
theorem get?_intern_cases {i : Nat} {stored : α}
    (found : (table.intern entry).2.get? i = some stored) :
    table.get? i = some stored ∨ stored = entry ∧ i = (table.intern entry).1 := by
  cases there : table.find? entry with
  | some j => rw [intern_of_find? there] at found; exact .inl found
  | none =>
    rw [intern_of_find?_none there] at found ⊢
    unfold get? at found ⊢
    rw [Array.getElem?_push] at found
    split at found
    · next last => exact .inr ⟨(Option.some.inj found).symm, last⟩
    · exact .inl found

/-! ### Distinct entries -/

omit [BEq α] [LawfulBEq α] in
/-- No entry is stored twice. -/
def Distinct (table : Interner α) : Prop :=
  ∀ ⦃i j entry⦄, table.get? i = some entry → table.get? j = some entry → i = j

/-- Interning stores no entry twice. -/
theorem Distinct.intern (distinct : table.Distinct) : (table.intern entry).2.Distinct := by
  cases there : table.find? entry with
  | some i => rw [intern_of_find? there]; exact distinct
  | none =>
    have new {i : Nat} : table.get? i ≠ some entry := find?_eq_none_iff.1 there i
    intro i j stored here here'
    obtain old | ⟨rfl, last⟩ := get?_intern_cases here <;>
      obtain old' | ⟨same, last'⟩ := get?_intern_cases here'
    · exact distinct old old'
    · exact absurd (same ▸ old) new
    · exact absurd old' new
    · rw [last, last']

end Interner

end CellC
