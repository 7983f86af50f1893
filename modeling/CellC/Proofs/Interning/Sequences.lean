import CellC.Interner
import Mathlib.Data.Finset.Card
import Mathlib.Data.List.Nodup

/-!
# Interning in sequence

Requests are made of a table one after the other, each for the entry that a key of the request
tells. The number that answers a request names the entry then and for good, because later requests
change nothing that is stored. So two requests are answered alike exactly if they are for the same
entry, a request for what is known leaves the table as it is, and a request for what is new is
answered with the number of entries so far.

## Main definitions

* `Interner.internAll`: the table after entries were interned one after the other
* `Interner.after`: the table after the first requests
* `Interner.answer`: the number that answers a request

## Main results

* `Interner.find?_after`: an entry is found at its answer after every later request
* `Interner.answer_eq_iff`: answers are equal exactly if the entries are
* `Interner.answer_of_new`, `Interner.after_succ_of_known`: new entries are numbered in turn, and
  known ones change nothing
* `Interner.get?_after_cases`: a number stands for something only from its answer on
* `Interner.size_after_le_card`: a table holds no more than the distinct entries asked for
-/

namespace CellC

namespace Interner

variable {α β : Type} [BEq α]

/-- The table after entries were interned one after the other. -/
def internAll (table : Interner α) (entries : List α) : Interner α :=
  entries.foldl (fun table entry => (table.intern entry).2) table

/-- The table after the first `n` requests. -/
def after (start : Interner α) (key : β → α) (requests : List β) (n : Nat) : Interner α :=
  start.internAll ((requests.take n).map key)

/-- The number that answers a request: it is asked of the table that those before it leave. -/
def answer (start : Interner α) (key : β → α) (requests : List β) (i : Fin requests.length) : Nat :=
  ((start.after key requests i).intern (key (requests.get i))).1

theorem internAll_append (table : Interner α) (entries later : List α) :
    table.internAll (entries ++ later) = (table.internAll entries).internAll later :=
  List.foldl_append

/-- A state that is changed by interning in its table has the table that this leads to. -/
theorem internAll_map {σ : Type} (table : σ → Interner α) (key : β → α) {step : σ → β → σ}
    (interns : ∀ state request, table (step state request) =
      ((table state).intern (key request)).2) (state : σ) (requests : List β) :
    table (requests.foldl step state) = (table state).internAll (requests.map key) := by
  unfold internAll
  rw [List.foldl_map]
  exact (List.foldl_hom table fun state request => (interns state request).symm).symm

theorem size_le_intern (table : Interner α) (entry : α) :
    table.size ≤ (table.intern entry).2.size := by
  cases there : table.find? entry with
  | some i => rw [intern_of_find? there]
  | none =>
    rw [intern_of_find?_none there]
    show table.entries.size ≤ (table.entries.push entry).size
    rw [Array.size_push]
    exact Nat.le_succ _

theorem size_le_internAll (table : Interner α) (entries : List α) :
    table.size ≤ (table.internAll entries).size := by
  induction entries generalizing table with
  | nil => exact Nat.le_refl _
  | cons entry entries ih => exact (size_le_intern table entry).trans (ih _)

/-! ### What is kept -/

section Kept

variable {table : Interner α} {entry : α} {i : Nat}

theorem get?_internAll_of_some {old : α} (found : table.get? i = some old) (entries : List α) :
    (table.internAll entries).get? i = some old := by
  induction entries generalizing table with
  | nil => exact found
  | cons entry entries ih => exact ih (get?_intern_of_some found)

omit [BEq α] in
theorem mem_entries_iff : entry ∈ table.entries ↔ ∃ i, table.get? i = some entry :=
  Array.mem_iff_getElem?

variable [LawfulBEq α]

theorem find?_internAll_of_some (found : table.find? entry = some i) (entries : List α) :
    (table.internAll entries).find? entry = some i :=
  find?_of_kept (fun _ _ found => get?_internAll_of_some found entries) found

theorem Distinct.internAll (distinct : table.Distinct) (entries : List α) :
    (table.internAll entries).Distinct := by
  induction entries generalizing table with
  | nil => exact distinct
  | cons entry entries ih => exact ih distinct.intern

theorem find?_eq_none_iff_not_mem : table.find? entry = none ↔ entry ∉ table.entries := by
  rw [find?_eq_none_iff, mem_entries_iff, not_exists]

/-- In a table of distinct entries, both look-ups are inverse to each other. -/
theorem Distinct.find?_eq_some_iff (distinct : table.Distinct) :
    table.find? entry = some i ↔ table.get? i = some entry := by
  refine ⟨get?_of_find?, fun found => Interner.find?_eq_some_iff.mpr ⟨found, ?_⟩⟩
  intro j before there
  exact Nat.ne_of_lt before (distinct there found)

omit [BEq α] [LawfulBEq α] in
theorem Distinct.nodup (distinct : table.Distinct) : table.entries.toList.Nodup := by
  rw [List.nodup_iff_getElem?_ne_getElem?]
  intro i j before lt same
  rw [Array.getElem?_toList, Array.getElem?_toList] at same
  have there : table.get? j = some table.entries[j] := Array.getElem?_eq_getElem lt
  exact Nat.ne_of_lt before (distinct (same.trans there) there)

end Kept

/-! ### Requests -/

section Requests

variable {start : Interner α} {key : β → α} {requests : List β}

theorem after_succ (i : Fin requests.length) :
    start.after key requests (i + 1) =
      ((start.after key requests i).intern (key requests[i])).2 := by
  unfold after
  rw [List.take_succ_eq_append_getElem i.isLt, List.map_append, internAll_append]
  rfl

/-- There is no request past the last one. -/
theorem after_succ_of_le {n : Nat} (le : requests.length ≤ n) :
    start.after key requests (n + 1) = start.after key requests n := by
  unfold after
  rw [List.take_of_length_le le, List.take_of_length_le (Nat.le_succ_of_le le)]

theorem exists_after_eq {m n : Nat} (le : m ≤ n) :
    ∃ later, start.after key requests n = (start.after key requests m).internAll later := by
  refine ⟨((requests.take n).drop m).map key, ?_⟩
  unfold after
  have front : (requests.take n).take m = requests.take m := by
    rw [List.take_take, Nat.min_eq_left le]
  rw [← internAll_append, ← List.map_append, ← front, List.take_append_drop]

/-- What a number stands for was there at the start or has been asked for since, and then the number
was the answer. -/
theorem get?_after_cases {n k : Nat} {entry : α}
    (found : (start.after key requests n).get? k = some entry) :
    start.get? k = some entry ∨
      ∃ i : Fin requests.length, i < n ∧ key requests[i] = entry ∧
        start.answer key requests i = k := by
  induction n with
  | zero => exact .inl found
  | succ n ih =>
    by_cases lt : n < requests.length
    · rw [after_succ ⟨n, lt⟩] at found
      obtain old | ⟨rfl, rfl⟩ := get?_intern_cases found
      · exact (ih old).imp_right fun ⟨i, before, rest⟩ => ⟨i, Nat.lt_succ_of_lt before, rest⟩
      · exact .inr ⟨⟨n, lt⟩, Nat.lt_succ_self n, rfl, rfl⟩
    · rw [after_succ_of_le (Nat.le_of_not_lt lt)] at found
      exact (ih found).imp_right fun ⟨i, before, rest⟩ => ⟨i, Nat.lt_succ_of_lt before, rest⟩

variable [LawfulBEq α]

/-- An entry is found at its answer after every later request. -/
theorem find?_after (i : Fin requests.length) {n : Nat} (lt : i < n) :
    (start.after key requests n).find? (key requests[i]) = some (start.answer key requests i) := by
  obtain ⟨later, same⟩ : ∃ later, start.after key requests n =
      (start.after key requests (i + 1)).internAll later := exists_after_eq (Nat.succ_le_of_lt lt)
  rw [same, after_succ]
  exact find?_internAll_of_some find?_intern_self later

/-- What was there at the start keeps its number. -/
theorem find?_after_of_start {entry : α} {i : Nat} (found : start.find? entry = some i) (n : Nat) :
    (start.after key requests n).find? entry = some i :=
  find?_internAll_of_some found _

/-- A number names what it was the answer to after every later request. -/
theorem get?_answer (i : Fin requests.length) {n : Nat} (lt : i < n) :
    (start.after key requests n).get? (start.answer key requests i) = some (key requests[i]) :=
  get?_of_find? (find?_after i lt)

/-- Two requests are answered alike exactly if they are for the same entry. -/
theorem answer_eq_iff (i j : Fin requests.length) :
    start.answer key requests i = start.answer key requests j ↔
      key requests[i] = key requests[j] := by
  have found (i : Fin requests.length) :
      (start.after key requests requests.length).find? (key requests[i]) =
        some (start.answer key requests i) := find?_after i i.isLt
  constructor
  · intro same
    have here := get?_of_find? (found i)
    rw [same, get?_of_find? (found j)] at here
    exact (Option.some.inj here).symm
  · intro same
    have here := found i
    rw [same, found j] at here
    exact (Option.some.inj here).symm

/-- After some requests the table has what was there at the start and what has been asked for. -/
theorem mem_after_iff {n : Nat} {entry : α} :
    entry ∈ (start.after key requests n).entries ↔
      entry ∈ start.entries ∨ ∃ i : Fin requests.length, i < n ∧ key requests[i] = entry := by
  rw [mem_entries_iff, mem_entries_iff]
  constructor
  · rintro ⟨k, found⟩
    obtain old | ⟨i, before, asked, -⟩ := get?_after_cases found
    · exact .inl ⟨k, old⟩
    · exact .inr ⟨i, before, asked⟩
  · rintro (⟨k, old⟩ | ⟨i, before, rfl⟩)
    · exact ⟨k, get?_internAll_of_some old _⟩
    · exact ⟨_, get?_answer i before⟩

/-- A request for what is known leaves the table as it is. -/
theorem after_succ_of_known (i : Fin requests.length)
    (known : key requests[i] ∈ start.entries ∨ ∃ j < i, key requests[j] = key requests[i]) :
    start.after key requests (i + 1) = start.after key requests i := by
  rw [after_succ]
  cases there : (start.after key requests i).find? (key requests[i]) with
  | some j => rw [intern_of_find? there]
  | none => exact absurd (mem_after_iff.mpr known) (find?_eq_none_iff_not_mem.mp there)

/-- A request for what is new is answered with the number of entries so far, and then there is one
more. -/
theorem answer_of_new (i : Fin requests.length) (unlike : key requests[i] ∉ start.entries)
    (earlier : ∀ j < i, key requests[j] ≠ key requests[i]) :
    start.answer key requests i = (start.after key requests i).size ∧
      (start.after key requests (i + 1)).size = (start.after key requests i).size + 1 := by
  have new : (start.after key requests i).find? (key requests[i]) = none := by
    rw [find?_eq_none_iff_not_mem, mem_after_iff, not_or, not_exists]
    exact ⟨unlike, fun j ⟨before, same⟩ => earlier j before same⟩
  refine ⟨?_, ?_⟩
  · exact congrArg Prod.fst (intern_of_find?_none new)
  · rw [after_succ, intern_of_find?_none new]
    exact Array.size_push _

theorem Distinct.after (distinct : start.Distinct) (n : Nat) :
    (start.after key requests n).Distinct :=
  distinct.internAll _

/-- A table holds no more than the distinct entries asked for. -/
theorem size_after_le_card [DecidableEq α] (distinct : start.Distinct) (n : Nat) :
    (start.after key requests n).size ≤
      (start.entries.toList ++ requests.map key).toFinset.card := by
  have nodup : (start.after key requests n).entries.toList.Nodup := (distinct.after n).nodup
  show (start.after key requests n).entries.size ≤ _
  rw [← Array.length_toList, ← List.toFinset_card_of_nodup nodup]
  refine Finset.card_le_card fun entry member => ?_
  rw [List.mem_toFinset, Array.mem_toList_iff, mem_after_iff] at member
  rw [List.mem_toFinset, List.mem_append, Array.mem_toList_iff]
  obtain old | ⟨i, -, rfl⟩ := member
  · exact .inl old
  · exact .inr (List.mem_map_of_mem (List.getElem_mem i.isLt))

end Requests

end Interner

end CellC
