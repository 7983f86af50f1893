import CellC.Proofs.Interning.Indexed
import CellC.Proofs.Resolution

/-!
# Numbers of spellings

The table of names of a new program has the empty spelling. All other spellings are given to it by
declarations and string literals, one after the other, and get their numbers once and for good. A
name that was not given out yet has no spelling of its own. So the functions of a program can be
told apart by their names as well as by their spellings.

## Main definitions

* `NameTable.NumbersOnce`: what names are given out for some spellings

## Main results

* `Program.Built.names_eq_after`: the names of a program are given out in sequence
* `name_numbers_permanent`: names of spellings, with and without an index, and of functions
-/

namespace CellC

namespace NameTable

/-- The table of a new program after the first `n` spellings were interned. -/
def after (asked : List String) (n : Nat) : NameTable :=
  (asked.take n).foldl (fun names text => (names.intern text).2) {}

/-- The name that is given out for a spelling. -/
def answer (asked : List String) (i : Fin asked.length) : Name :=
  ((after asked i).intern asked[i]).1

/-- Names are given out once and for good. -/
structure NumbersOnce (asked : List String) : Prop where
  /-- A name has the spelling that it was given out for, then and after every later request. -/
  kept : ∀ (i : Fin asked.length) (n : Nat), i < n →
    (after asked n).spelling (answer asked i) = asked[i]
  /-- Two names that are given out are the same exactly if they are for the same spelling. -/
  same_iff : ∀ i j : Fin asked.length, answer asked i = answer asked j ↔ asked[i] = asked[j]
  /-- The first name is given out at the start. -/
  first : (after asked 0).spellings.size = 1
  /-- It is that of the empty spelling, which no request changes. -/
  empty : ∀ n, (after asked n).spelling .empty = "" ∧
    (after asked n).intern "" = (.empty, after asked n)
  /-- The first request for a spelling gives out the next name. -/
  new : ∀ i : Fin asked.length, asked[i] ≠ "" → (∀ j < i, asked[j] ≠ asked[i]) →
    answer asked i = ⟨(after asked i).spellings.size⟩ ∧
      (after asked (i + 1)).spellings.size = (after asked i).spellings.size + 1
  /-- Any other request for a spelling leaves the table as it is. -/
  known : ∀ i : Fin asked.length, (asked[i] = "" ∨ ∃ j < i, asked[j] = asked[i]) →
    after asked (i + 1) = after asked i
  /-- A name that was not given out yet has no spelling of its own. -/
  later : ∀ (n : Nat) (name : Name), name ≠ .empty →
    (∀ i : Fin asked.length, i < n → answer asked i ≠ name) →
    (after asked n).spelling name = unknown

section Asked

variable {asked : List String}

theorem spellings_after (n : Nat) :
    (after asked n).spellings = ({} : NameTable).spellings.after id asked n :=
  Interner.internAll_map spellings id (fun _ _ => rfl) {} _

theorem index_answer (i : Fin asked.length) :
    (answer asked i).index = ({} : NameTable).spellings.answer id asked i := by
  rw [answer, Interner.answer, ← spellings_after]
  rfl

/-- Only the empty spelling is there at the start. -/
theorem eq_empty_iff_mem {text : String} :
    text = "" ↔ id text ∈ ({} : NameTable).spellings.entries :=
  Array.mem_singleton.symm

theorem numbersOnce (asked : List String) : NumbersOnce asked where
  kept i n lt := by
    rw [spelling, spellings_after, index_answer, Interner.get?_answer i lt, Option.getD_some]
    rfl
  same_iff i j := by
    have same : (answer asked i).index = (answer asked j).index ↔ asked[i] = asked[j] := by
      rw [index_answer, index_answer]
      exact Interner.answer_eq_iff i j
    exact ⟨fun names => same.mp (congrArg Name.index names),
      fun texts => congrArg Name.mk (same.mpr texts)⟩
  first := rfl
  empty n := by
    have there : (after asked n).spellings.find? "" = some 0 := by
      rw [spellings_after]
      exact Interner.find?_after_of_start (by decide +kernel) n
    refine ⟨?_, ?_⟩
    · rw [spelling, Name.empty, Interner.get?_of_find? there, Option.getD_some]
    · rw [intern, Interner.intern_of_find? there]
      rfl
  new i unlike earlier := by
    have new := Interner.answer_of_new i (mt eq_empty_iff_mem.mpr unlike) earlier
    rw [← index_answer, ← spellings_after, ← spellings_after] at new
    exact ⟨congrArg Name.mk new.1, new.2⟩
  known i known := by
    have same : (after asked (i + 1)).spellings = (after asked i).spellings := by
      rw [spellings_after, spellings_after]
      exact Interner.after_succ_of_known i (known.imp_left eq_empty_iff_mem.mp)
    exact congrArg NameTable.mk same
  later n name unlike unasked := by
    cases found : (after asked n).spellings.get? name.index with
    | none => rw [spelling, found, Option.getD_none]
    | some text =>
      rw [spellings_after] at found
      obtain old | ⟨i, before, -, same⟩ := Interner.get?_after_cases found
      · -- What is there at the start has the name of the empty spelling.
        have lt : name.index < 1 := (Array.getElem?_eq_some_iff.mp old).1
        exact absurd (congrArg Name.mk (Nat.lt_one_iff.mp lt)) unlike
      · rw [← index_answer] at same
        exact absurd (congrArg Name.mk same) (unasked i before)

end Asked

/-! ### Tables with an index -/

/-- The table of names of a new program with an index of it. -/
def indexed : IndexedInterner String := ({} : IndexedInterner String).internAll [""]

theorem indexes_indexed : indexed.Indexes ({} : NameTable).spellings := by
  have same : Interner.internAll ⟨#[]⟩ [""] = ({} : NameTable).spellings := by decide +kernel
  rw [← same]
  exact IndexedInterner.indexes_empty.internAll [""] (by decide +kernel)

end NameTable

/-! ### Names in programs -/

namespace Builder

theorem names_anonymousParams (func : FuncId) (start : Nat) (types : List TypeId)
    (program : Program) : ∃ asked,
      ((anonymousParams func start types).run program).2.names.spellings =
        program.names.spellings.internAll asked := by
  induction types generalizing start program with
  | nil => exact ⟨[], rfl⟩
  | cons type types ih =>
    obtain ⟨asked, same⟩ := ih (start + 1) ((param func s!"arg{start}" type).run program).2
    exact ⟨s!"arg{start}" :: asked, same⟩

theorem names_expr (form : ExprForm) (program : Program) :
    ((expr form).run program).2.names = program.names := by
  obtain ⟨type, types, same⟩ := run_expr form program
  rw [same]

end Builder

namespace Program

/-- A step of building a program interns the spellings that it mentions. -/
theorem names_run (construction : Construction) (program : Program) : ∃ asked,
    (construction.run.run program).2.names.spellings =
      program.names.spellings.internAll asked := by
  cases construction with
  | type | body | stmt => exact ⟨[], rfl⟩
  | function name | var name | global name | param _ name => exact ⟨[name], rfl⟩
  | prototype name params ret =>
    obtain ⟨asked, same⟩ := Builder.names_anonymousParams ⟨program.funcs.size⟩ 0 params
      ((Builder.function name ret).run program).2
    exact ⟨name :: asked, same⟩
  | expr form => exact ⟨[], congrArg NameTable.spellings (Builder.names_expr form program)⟩
  | string text =>
    have same := Builder.names_expr (.strLit ((Builder.name text).run program).1)
      ((Builder.name text).run program).2
    exact ⟨[text], congrArg NameTable.spellings same⟩

/-- The names of a program are given out in sequence, starting from the table of a new one. -/
theorem Built.names_eq_after {program : Program} (built : program.Built) :
    ∃ asked, program.names = NameTable.after asked asked.length := by
  suffices interned : ∃ asked, program.names.spellings =
      ({} : NameTable).spellings.internAll asked by
    obtain ⟨asked, same⟩ := interned
    refine ⟨asked, congrArg NameTable.mk ?_⟩
    show program.names.spellings = (NameTable.after asked asked.length).spellings
    rw [same, NameTable.spellings_after, Interner.after, List.take_length, List.map_id]
  induction built with
  | refl => exact ⟨[], rfl⟩
  | step construction _ _ ih =>
    obtain ⟨asked, same⟩ := ih
    obtain ⟨more, next⟩ := names_run construction _
    exact ⟨asked ++ more, by rw [next, same, Interner.internAll_append]⟩

/-- Two functions have the same name exactly if they are spelled alike. -/
theorem Listed.map_name_eq_iff {program : Program} (listed : program.Listed)
    {func other : FuncId} (member : func ∈ program.functions)
    (member' : other ∈ program.functions) :
    (program.func? func).map FuncDecl.name = (program.func? other).map FuncDecl.name ↔
      program.funcName func = program.funcName other := by
  obtain ⟨decl, found⟩ := listed.mem_functions_iff.mp member
  obtain ⟨decl', found'⟩ := listed.mem_functions_iff.mp member'
  rw [← listed.name_eq_iff found found', found, found', Option.map_some, Option.map_some,
    Option.some_inj]

end Program

/-! ### All spellings -/

open NameTable (NumbersOnce after answer indexed)

/-- **Spellings keep their names.** Names are given out once and for good, whatever is interned, and
below `2 ^ 32` spellings a table with an index gives out the same ones. The names of a program are
given out in this way. So its functions have the same name exactly if they are spelled alike, and
the body that runs for a function is one that is found by the spelling. -/
theorem name_numbers_permanent (asked : List String) :
    NumbersOnce asked ∧
    (("" :: asked).toFinset.card < UInt32.size →
      (∀ n, (indexed.after id asked n).Indexes (after asked n).spellings) ∧
      ∀ i, (indexed.answer id asked i).toNat = (answer asked i).index) ∧
    ∀ program : Program, program.Built →
      (∃ texts, program.names = after texts texts.length) ∧
      (∀ func ∈ program.functions, ∀ other ∈ program.functions,
        (program.func? func).map FuncDecl.name = (program.func? other).map FuncDecl.name ↔
          program.funcName func = program.funcName other) ∧
      ∀ setup, program.setup = .ok setup → ∀ func ∈ program.functions,
        setup.implementation program func =
          if program.hasBody func then func
          else (program.definitions (program.funcName func)).getLast?.getD func := by
  refine ⟨NameTable.numbersOnce asked, fun few => ⟨fun n => ?_, fun i => ?_⟩,
    fun program built => ?_⟩
  · rw [NameTable.spellings_after]
    exact NameTable.indexes_indexed.after (by rw [List.map_id]; exact few.le) n
  · rw [NameTable.index_answer]
    exact NameTable.indexes_indexed.toNat_answer (by rw [List.map_id]; exact few.le) i
  · have listed := built.listed
    exact ⟨built.names_eq_after,
      fun func member other member' => listed.map_name_eq_iff member member',
      fun setup set => (listed.resolves set).implementation⟩

/-- Spellings that are interned again, among them the empty one and what a name without a spelling
reads as. -/
def repeatedSpellings : List String := ["main", "", "<unknown>", "main"]

/-- The second request for `main` is answered with its name, and the next name has no spelling yet.
In a program that declares functions again, the declaration of `f` after its definitions has their
name and stands for the last of them. -/
theorem name_numbers_permanent_redeclarations :
    ("" :: repeatedSpellings).toFinset.card < UInt32.size ∧
    List.ofFn (answer repeatedSpellings) = [⟨1⟩, .empty, ⟨2⟩, ⟨1⟩] ∧
    (after repeatedSpellings 4).spelling ⟨1⟩ = "main" ∧
    (after repeatedSpellings 4).spelling ⟨3⟩ = NameTable.unknown ∧
    (indexed.answer id repeatedSpellings ⟨3, by decide⟩).toNat = 1 ∧
    redeclarations.Built ∧
    (redeclarations.func? ⟨4⟩).map FuncDecl.name = (redeclarations.func? ⟨3⟩).map FuncDecl.name ∧
    ∃ setup, redeclarations.setup = .ok setup ∧
      setup.implementation redeclarations ⟨4⟩ = ⟨3⟩ := by
  have few : ("" :: repeatedSpellings).toFinset.card < UInt32.size := by decide +kernel
  have answers : List.ofFn (answer repeatedSpellings) = [⟨1⟩, .empty, ⟨2⟩, ⟨1⟩] := by
    decide +kernel
  have built : redeclarations.Built := by
    have steps : (Program.ofConstructions redeclarationsSteps).2 = redeclarations := by
      decide +kernel
    exact steps ▸ Program.built_ofConstructions (by decide +kernel)
  obtain ⟨once, found, programs⟩ := name_numbers_permanent repeatedSpellings
  obtain ⟨-, alike, implementation⟩ := programs redeclarations built
  refine ⟨few, answers, ?_, ?_, ?_, built, ?_, ?_⟩
  · have first : answer repeatedSpellings ⟨0, by decide⟩ = ⟨1⟩ := by decide +kernel
    rw [← first]
    exact once.kept ⟨0, by decide⟩ 4 (by decide)
  · exact once.later 4 ⟨3⟩ (by decide) (by decide +kernel)
  · rw [(found few).2]
    decide +kernel
  · exact (alike ⟨4⟩ (by decide +kernel) ⟨3⟩ (by decide +kernel)).mpr (by decide +kernel)
  · cases set : redeclarations.setup with
    | error fault =>
      rw [Program.Listed.setup_eq_error_iff] at set
      exact absurd (by decide +kernel) (set.2 ⟨0⟩ (by decide +kernel))
    | ok setup =>
      refine ⟨setup, rfl, ?_⟩
      rw [implementation setup set ⟨4⟩ (by decide +kernel)]
      decide +kernel

end CellC
