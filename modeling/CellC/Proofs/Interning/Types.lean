import CellC.Proofs.Interning.Indexed
import CellC.Type.Table

/-!
# Numbers of types

The table of a new program has `int`, `char` and `void`. All other types are asked for by calls: for
the type with some outermost layer, for a pointer to a type or for an array of a type. The numbers
that answer the calls are given out once and for good, in turn, and each stands for the same type
from then on. A table that finds types by an index gives out the same numbers, as long as these are
words of 32 bits.

## Main definitions

* `TypeCall`, `TypeTable.perform`: a call that asks for the number of a type, and its answer
* `TypeTable.NumbersOnce`: what numbers are given out for some calls

## Main results

* `type_numbers_permanent`: the numbers of types, with and without an index
-/

namespace CellC

deriving instance Hashable for TypeId
deriving instance Hashable for TypeLayer

/-- A call that asks for the number of a type. -/
inductive TypeCall
  /-- Asks for the type with the given outermost layer. -/
  | intern (layer : TypeLayer)
  /-- Asks for the pointers to a type. -/
  | pointerTo (pointee : TypeId)
  /-- Asks for the arrays of a type. -/
  | arrayOf (elem : TypeId) (len : UInt64)
deriving DecidableEq

/-- The outermost layer of the type that is asked for. -/
def TypeCall.layer : TypeCall → TypeLayer
  | intern layer => layer
  | pointerTo pointee => .pointer pointee
  | arrayOf elem len => .array elem len

namespace TypeTable

/-- The number of the pointers to a type. -/
def pointerTo (table : TypeTable) (pointee : TypeId) : TypeId × TypeTable :=
  table.intern (.pointer pointee)

/-- The number of the arrays of a type that have the given length. -/
def arrayOf (table : TypeTable) (elem : TypeId) (len : UInt64) : TypeId × TypeTable :=
  table.intern (.array elem len)

/-- Answers a call. -/
def perform (table : TypeTable) : TypeCall → TypeId × TypeTable
  | .intern layer => table.intern layer
  | .pointerTo pointee => table.pointerTo pointee
  | .arrayOf elem len => table.arrayOf elem len

/-- The types that are there before any call. -/
def basic : List TypeLayer := [.int, .char, .void]

/-- The table of a new program after the first `n` calls. -/
def after (calls : List TypeCall) (n : Nat) : TypeTable :=
  (calls.take n).foldl (fun table call => (table.perform call).2) {}

/-- The number that answers a call. -/
def answer (calls : List TypeCall) (i : Fin calls.length) : TypeId :=
  ((after calls i).perform calls[i]).1

/-- Numbers are given out once and for good. -/
structure NumbersOnce (calls : List TypeCall) : Prop where
  /-- A number stands for the type that it was given out for, then and after every later call. -/
  kept : ∀ (i : Fin calls.length) (n : Nat), i < n →
    (after calls n).layer (answer calls i) = calls[i].layer
  /-- Two calls are answered alike exactly if they ask for the same type. -/
  same_iff : ∀ i j : Fin calls.length,
    answer calls i = answer calls j ↔ calls[i].layer = calls[j].layer
  /-- The first three numbers are given out at the start. -/
  first : (after calls 0).layers.size = 3
  /-- The first call for a type gives out the next number. -/
  new : ∀ i : Fin calls.length, calls[i].layer ∉ basic →
    (∀ j < i, calls[j].layer ≠ calls[i].layer) →
    answer calls i = ⟨(after calls i).layers.size⟩ ∧
      (after calls (i + 1)).layers.size = (after calls i).layers.size + 1
  /-- Any other call for a type leaves the table as it is. -/
  known : ∀ i : Fin calls.length,
    (calls[i].layer ∈ basic ∨ ∃ j < i, calls[j].layer = calls[i].layer) →
    after calls (i + 1) = after calls i
  /-- These are the numbers of `int`, `char` and `void`, which no call changes. -/
  int : ∀ n, (after calls n).layer .int = .int ∧
    (after calls n).intern .int = (.int, after calls n)
  char : ∀ n, (after calls n).layer .char = .char ∧
    (after calls n).intern .char = (.char, after calls n)
  void : ∀ n, (after calls n).layer .void = .void ∧
    (after calls n).intern .void = (.void, after calls n)

/-! ### Calls as requests for layers -/

section Calls

variable {calls : List TypeCall}

theorem perform_eq (table : TypeTable) (call : TypeCall) :
    table.perform call = table.intern call.layer := by
  cases call <;> rfl

theorem layers_after (n : Nat) :
    (after calls n).layers = ({} : TypeTable).layers.after TypeCall.layer calls n :=
  Interner.internAll_map layers TypeCall.layer
    (fun table call => congrArg (·.2.layers) (perform_eq table call)) {} _

theorem index_answer (i : Fin calls.length) :
    (answer calls i).index = ({} : TypeTable).layers.answer TypeCall.layer calls i := by
  rw [answer, perform_eq, Interner.answer, ← layers_after]
  rfl

theorem mem_basic_iff {stored : TypeLayer} :
    stored ∈ basic ↔ stored ∈ ({} : TypeTable).layers.entries :=
  Array.mem_toList_iff

/-- A type that is there before any call keeps its number. -/
theorem fixed_after {stored : TypeLayer} {id : TypeId}
    (found : ({} : TypeTable).layers.find? stored = some id.index) (n : Nat) :
    (after calls n).layer id = stored ∧ (after calls n).intern stored = (id, after calls n) := by
  have there : (after calls n).layers.find? stored = some id.index := by
    rw [layers_after]
    exact Interner.find?_after_of_start found n
  refine ⟨?_, ?_⟩
  · rw [layer, Interner.get?_of_find? there, Option.getD_some]
  · unfold intern
    rw [Interner.intern_of_find? there]

theorem numbersOnce (calls : List TypeCall) : NumbersOnce calls where
  kept i n lt := by
    rw [layer, layers_after, index_answer, Interner.get?_answer i lt, Option.getD_some]
  same_iff i j := by
    have same : (answer calls i).index = (answer calls j).index ↔
        calls[i].layer = calls[j].layer := by
      rw [index_answer, index_answer]
      exact Interner.answer_eq_iff i j
    exact ⟨fun ids => same.mp (congrArg TypeId.index ids),
      fun layers => congrArg TypeId.mk (same.mpr layers)⟩
  first := rfl
  new i unlike earlier := by
    have new := Interner.answer_of_new i (mt mem_basic_iff.mpr unlike) earlier
    rw [← index_answer, ← layers_after, ← layers_after] at new
    exact ⟨congrArg TypeId.mk new.1, new.2⟩
  known i known := by
    have same := Interner.after_succ_of_known i (known.imp_left mem_basic_iff.mp)
    rw [← layers_after, ← layers_after] at same
    exact congrArg TypeTable.mk same
  int := fixed_after (by decide +kernel)
  char := fixed_after (by decide +kernel)
  void := fixed_after (by decide +kernel)

end Calls

/-! ### Tables with an index -/

/-- The table of a new program with an index of it. -/
def indexed : IndexedInterner TypeLayer := ({} : IndexedInterner TypeLayer).internAll basic

theorem indexes_indexed : indexed.Indexes ({} : TypeTable).layers := by
  have same : Interner.internAll ⟨#[]⟩ basic = ({} : TypeTable).layers := by decide +kernel
  rw [← same]
  exact IndexedInterner.indexes_empty.internAll basic (by decide +kernel)

end TypeTable

/-! ### All calls -/

open TypeTable (NumbersOnce basic after answer indexed)

/-- **Types keep their numbers.** The numbers of types are given out once and for good, whatever is
asked for. If fewer than `2 ^ 32` types are asked for, a table with an index has the same types
after every call, its index is the inverse of their list, and it answers each call with the same
number. -/
theorem type_numbers_permanent (calls : List TypeCall) :
    NumbersOnce calls ∧
    ((basic ++ calls.map TypeCall.layer).toFinset.card < UInt32.size →
      (∀ n, (indexed.after TypeCall.layer calls n).Indexes (after calls n).layers) ∧
      ∀ i, (indexed.answer TypeCall.layer calls i).toNat = (answer calls i).index) := by
  refine ⟨TypeTable.numbersOnce calls, fun few => ⟨fun n => ?_, fun i => ?_⟩⟩
  · rw [TypeTable.layers_after]
    exact TypeTable.indexes_indexed.after few.le n
  · rw [TypeTable.index_answer]
    exact TypeTable.indexes_indexed.toNat_answer few.le i

/-- Calls for pointers to `int`, twice, with arrays between them, one of them over a number that was
never given out. -/
def pointersAndArrays : List TypeCall :=
  [.pointerTo .int, .arrayOf ⟨3⟩ 4, .intern .char, .arrayOf ⟨900⟩ 0, .pointerTo .int]

/-- Six types are numbered, and the last call is answered like the first one. -/
theorem type_numbers_permanent_pointersAndArrays :
    (basic ++ pointersAndArrays.map TypeCall.layer).toFinset.card < UInt32.size ∧
    List.ofFn (answer pointersAndArrays) = [⟨3⟩, ⟨4⟩, .char, ⟨5⟩, ⟨3⟩] ∧
    (after pointersAndArrays 5).layer ⟨3⟩ = .pointer .int ∧
    after pointersAndArrays 5 = after pointersAndArrays 4 ∧
    (indexed.answer TypeCall.layer pointersAndArrays ⟨4, by decide⟩).toNat = 3 ∧
    (indexed.after TypeCall.layer pointersAndArrays 5).entries =
      #[.int, .char, .void, .pointer .int, .array ⟨3⟩ 4, .array ⟨900⟩ 0] := by
  have few : (basic ++ pointersAndArrays.map TypeCall.layer).toFinset.card < UInt32.size := by
    decide +kernel
  have answers : List.ofFn (answer pointersAndArrays) = [⟨3⟩, ⟨4⟩, .char, ⟨5⟩, ⟨3⟩] := by
    decide +kernel
  obtain ⟨once, found⟩ := type_numbers_permanent pointersAndArrays
  obtain ⟨indexes, same⟩ := found few
  refine ⟨few, answers, ?_, ?_, ?_, ?_⟩
  · have first : answer pointersAndArrays ⟨0, by decide⟩ = ⟨3⟩ := by decide +kernel
    rw [← first]
    exact once.kept ⟨0, by decide⟩ 5 (by decide)
  · exact once.known ⟨4, by decide⟩ (.inr ⟨⟨0, by decide⟩, by decide, rfl⟩)
  · rw [same]
    decide +kernel
  · rw [(indexes 5).entries]
    decide +kernel

end CellC
