import CellC.Proofs.Arrays.Elements
import CellC.Proofs.Heap.Freshness
import CellC.Proofs.Heap.Storing
import CellC.Proofs.StackDiscipline

/-!
# Nested arrays hold what was assigned

As long as the block of a nested array is live and nothing but assignments to its elements writes to
it, the array is a map: each element is what was last assigned to it, or zero. How such a state came
about is told by a course, which begins with the declaration and lists the assignments.

## Main definitions

* `NestedArray.Course`: the states that a declaration and then assignments to elements lead to
* `NestedArray.latest`: what was last assigned to an element
* `NestedArray.Holds`: the bytes of the block are those of the values last assigned

## Main results

* `Interpreter.Reachable.ordered`: the heap is in order whatever was requested
* `NestedArray.Course.holds`: what a course says is in the block
* `nested_arrays_hold_assigned`: declaring, reading and writing nested arrays
* `nested_array_wraps_around`: a nested array at the last address, whose elements have no addresses
-/

namespace CellC

/-! ### Order at all times -/

/-- Whatever is evaluated or executed, the heap stays in order. -/
theorem Config.closed_ordered (config : Config) :
    config.Closed (fun s t => s.stack.Undisturbed config.setup t.stack ∧
        (s.heap.Ordered → t.heap.Ordered))
      fun _ s t => s.stack.Undisturbed config.setup t.stack ∧ (s.heap.Ordered → t.heap.Ordered) :=
  config.closed_heap (fun ordered stored => ordered.store stored)
    (fun ordered made => ordered.allocate made) fun base ordered => ordered.remove base

/-- The heap is in order whatever was requested, and however much of the address space is left. -/
theorem Interpreter.Reachable.ordered {program : Program} {settings : Settings}
    {interpreter : Interpreter} (reachable : Reachable program settings interpreter) :
    interpreter.state.heap.Ordered := by
  induction reachable with
  | start started =>
    rw [state_of_start started]
    exact .empty
  | @run interpreter levels result s' _ run ih =>
    exact (interpreter.config.closed_ordered.run run).elim.2 ih
  | @eval interpreter levels id result s' _ run ih =>
    exact (interpreter.config.closed_ordered.eval run).elim.2 ih
  | @exec interpreter levels id result s' _ run ih =>
    exact (interpreter.config.closed_ordered.exec run).elim.2 ih

namespace Config

namespace NestedArray

variable {config : Config} (array : config.NestedArray)

/-- A value as the type of the elements sees it. -/
def seen (v : Value) : Value := config.types.view array.elem v.cell

/-- What was last assigned to the element with the given indices, as the type of the elements sees
it, or zero. The newest assignment comes first. -/
def latest (log : List (List Nat × Value)) (idx : List Nat) : Value :=
  array.seen ((log.lookup idx).getD .zero)

/-- The states in which the array at `base` is live and only assignments to its elements have
written to it, with the indices and values of these assignments, the newest first. -/
inductive Course (base : Address) : List (List Nat × Value) → State → Prop
  /-- The array is declared, with all of its addresses below the last one. -/
  | declared {eval s t} : s.heap.Ordered →
    (config.declare eval array.var).Returns s (.ok ()) t →
    config.visibleValue? t.stack array.var = some (.array base) →
    base.toNat + array.size ≤ maxWord → Course base [] t
  /-- An assignment to an element, whose parts may have effects of their own. -/
  | assigned {a target value type idx v w log s s' t u} :
    config.program.expr? a = some ⟨.binary .assign target value, type⟩ →
    config.Evaluates value s (.ok v) t →
    array.Locates base (config.program.unparen target) idx t u →
    array.InBounds idx → Course base log u →
    config.Evaluates a s (.ok w) s' → Course base ((idx, v) :: log) s'
  /-- Anything else that happens, as long as the block stays as it is. -/
  | passed {log s t} : Course base log s → t.heap.Ordered →
    t.heap.blockAt? base = s.heap.blockAt? base → Course base log t

/-- The block at `base` has room for the array, and each element is in its place there. -/
structure Holds (base : Address) (log : List (List Nat × Value)) (s : State) : Prop where
  ordered : s.heap.Ordered
  room : base.toNat + array.size ≤ maxWord
  block : ∃ block, s.heap.blockAt? base = some block ∧ block.size = array.size ∧
    ∀ idx, array.InBounds idx →
      block.read (array.start idx) array.width = (array.latest log idx).cell

variable {array} {base : Address} {log : List (List Nat × Value)} {idx idx' : List Nat} {v : Value}

@[simp] theorem latest_nil (idx : List Nat) : array.latest [] idx = array.seen .zero := rfl

@[simp] theorem latest_cons_self : array.latest ((idx, v) :: log) idx = array.seen v := by
  simp [latest]

theorem latest_cons_of_ne (other : idx' ≠ idx) :
    array.latest ((idx, v) :: log) idx' = array.latest log idx' := by
  unfold latest
  rw [List.lookup_cons, beq_eq_false_iff_ne.mpr other]

@[simp] theorem seen_latest (log : List (List Nat × Value)) (idx : List Nat) :
    array.seen (array.latest log idx) = array.latest log idx :=
  Value.ofCell_cell_ofCell _ _

/-- The type of the elements reads back what it wrote. -/
theorem ofBytes_toBytes_seen (v : Value) :
    Cell.ofBytes ((array.seen v).cell.toBytes array.width) = (array.seen v).cell :=
  TypeTable.ofBytes_toBytes_view v.cell

theorem accessWidth_width (array : config.NestedArray) :
    Heap.accessWidth (config.types.width array.elem) = array.width :=
  TypeTable.accessWidth_width array.nested.isArray_elem

/-! ### Declarations -/

/-- A declared array gets a block of zeros of its size. -/
theorem returns_declare (array : config.NestedArray) (eval : ExprId → Action Value) {s : State}
    (ordered : s.heap.Ordered) :
    ∃ t, (config.declare eval array.var).Returns s (.ok ()) t ∧ t.heap.Ordered ∧
      config.visibleValue? t.stack array.var = some (.array s.heap.next) ∧
      t.heap.blockAt? s.heap.next =
        some ⟨s.heap.next, .array, Array.replicate array.size 0⟩ := by
  have isArray : config.types.isArray array.decl.type = true := by
    obtain ⟨n, dims, shape⟩ := List.exists_cons_of_ne_nil array.deep
    have nested := array.nested
    rw [shape] at nested
    exact nested.isArray_of_cons
  have stride : config.types.stride array.decl.type = Int64.ofNat array.size :=
    array.stride_eq (n := 0) array.nested (Nat.le_refl _)
  have small := array.size_le
  have count : (Int64.ofNat array.size).toInt = array.size :=
    Int64.toInt_ofNat_of_lt (Nat.lt_of_le_of_lt small (by decide))
  have made : ∃ after, s.heap.allocate (config.types.stride array.decl.type) .array =
      .ok (s.heap.next, after) ∧ after.blockAt? s.heap.next =
        some ⟨s.heap.next, .array, Array.replicate array.size 0⟩ := by
    unfold Heap.allocate
    rw [stride, count, if_pos ⟨by omega, by omega⟩]
    exact ⟨_, rfl, by simp [Heap.blockAt?]⟩
  obtain ⟨after, made, block⟩ := made
  let bound : State := { s with
    heap := after
    stack := (s.stack.modifyTop (·.adopt s.heap.next)).modifyTop
      (·.bind array.var (.array s.heap.next))
    journal := (s.journal.push (.allocate s.heap.next
      (config.types.stride array.decl.type).toInt.toNat .array)).push
        (.declare array.var (.array s.heap.next)) }
  refine ⟨bound, ?_, ordered.allocate made, ?_, block⟩
  · unfold Action.Returns declare startValue
    rw [array.declared, EStateM.run_bind, Action.run_ofOption_some]
    dsimp only
    rw [if_pos isArray, bind_assoc, EStateM.run_bind, Action.run_allocate, made]
    rfl
  · unfold visibleValue?
    simp [bound, Frame.value?_bind]

/-- A new array holds zeros. -/
theorem holds_replicate_zero {s : State} (ordered : s.heap.Ordered)
    (room : base.toNat + array.size ≤ maxWord)
    (block : s.heap.blockAt? base = some ⟨base, .array, Array.replicate array.size 0⟩) :
    array.Holds base [] s where
  ordered := ordered
  room := room
  block := by
    refine ⟨_, block, by simp [Block.size], fun idx _ => ?_⟩
    rw [Block.read_replicate_zero, latest_nil]
    unfold seen TypeTable.view
    cases config.types.layer array.elem <;> rfl

/-! ### Accesses -/

namespace Holds

variable {s t : State} (holds : array.Holds base log s) (within : array.InBounds idx)
include holds within

theorem toNat_address : (array.address base idx).toNat = base.toNat + array.start idx := by
  have room := holds.room
  have inside := within.start_add_le
  exact Address.toNat_ofNat_of_le (by omega)

/-- An element lies within the block, and not at the last address. -/
theorem contains {block : Block} (found : s.heap.blockAt? base = some block)
    (size : block.size = array.size) :
    (array.address base idx).toNat - block.base.toNat = array.start idx ∧
      block.Contains (array.address base idx).toNat
        (Heap.accessWidth (config.types.width array.elem)) ∧
      (array.address base idx).toNat < maxWord := by
  have room := holds.room
  have inside := within.start_add_le
  have wide : 0 < array.width := config.types.scalarWidth_pos array.elem
  rw [holds.toNat_address within, array.accessWidth_width, (Heap.mem_of_blockAt? found).2]
  unfold Block.Contains
  rw [(Heap.mem_of_blockAt? found).2, size]
  omega

/-- The cell of an element is loaded. -/
theorem load_eq : s.heap.load (array.address base idx) (config.types.width array.elem) =
    .ok (array.latest log idx).cell := by
  obtain ⟨block, found, size, held⟩ := holds.block
  obtain ⟨start, contains, last⟩ := holds.contains within found size
  rw [holds.ordered.load_of_contains (Heap.mem_of_blockAt? found).1 contains last, start,
    array.accessWidth_width, held idx within]

/-- A store to an element is an assignment to it. -/
theorem store_eq (v : Value) :
    ∃ after, s.heap.store (array.address base idx) (config.types.width array.elem)
        (array.seen v).cell = .ok after ∧
      ∀ t : State, t.heap = after → array.Holds base ((idx, v) :: log) t := by
  obtain ⟨block, found, size, held⟩ := holds.block
  obtain ⟨start, contains, last⟩ := holds.contains within found size
  obtain ⟨member, rfl⟩ := Heap.mem_of_blockAt? found
  obtain ⟨after, stored, written⟩ := holds.ordered.store_of_contains member contains last
    (array.seen v).cell
  refine ⟨after, stored, ?_⟩
  rintro t rfl
  rw [start, array.accessWidth_width] at written
  have ordered := holds.ordered.store stored
  have here : t.heap.blockAt? block.base = some (block.written (array.start idx) _) :=
    ordered.blockAt?_of_mem written
  refine ⟨ordered, holds.room, _, here, ?_, fun other within' => ?_⟩
  · rw [Block.size_written, size]
  · have inside := within.start_add_le
    by_cases same : other = idx
    · subst same
      rw [Block.read_written_self (by omega), ofBytes_toBytes_seen, latest_cons_self]
    · have apart := within.apart within' (Ne.symm same)
      rw [Block.read_written_apart (by rw [Cell.length_toBytes]; omega)
        (by rw [Cell.length_toBytes]; omega), held other within', latest_cons_of_ne same]

end Holds

section Evaluation

variable (grounded : config.program.Grounded) {e : ExprId} {s t u : State}
include grounded

/-- The place of an element is where row-major order puts it. -/
theorem findsPlace (within : array.InBounds idx) (located : array.Locates base e idx s t) :
    config.FindsPlace e s (array.address base idx) t := by
  obtain ⟨row, x, found, levels, place⟩ := located.element grounded within.prod_pos within.length
  exact ⟨_, levels, _, found, rfl, place⟩

/-- Reading an element yields what it holds. -/
theorem evaluates_element (within : array.InBounds idx) (located : array.Locates base e idx s t)
    (holds : array.Holds base log t) :
    config.Evaluates e s (.ok (array.latest log idx)) (t.record e (array.latest log idx)) := by
  obtain ⟨row, x, found, levels, place⟩ := located.element grounded within.prod_pos within.length
  have read := returns_readPlace_ok place array.nested.isArray_elem (holds.load_eq within)
  have same : config.types.view array.elem (array.latest log idx).cell = array.latest log idx :=
    array.seen_latest log idx
  rw [same] at read
  refine ⟨levels + 1, returns_eval_ok found ?_⟩
  rwa [expression_eq_readPlace rfl]

/-- An assignment to an element yields what the type of the elements makes of the value, and the
element holds the value then. -/
theorem evaluates_assignment {a target value : ExprId} {type : TypeId}
    (assignment : config.program.expr? a = some ⟨.binary .assign target value, type⟩)
    (evaluated : config.Evaluates value s (.ok v) t) (within : array.InBounds idx)
    (located : array.Locates base (config.program.unparen target) idx t u)
    (holds : array.Holds base log u) :
    ∃ s', config.Evaluates a s (.ok (array.seen v)) s' ∧
      s' = { (u.record (config.program.unparen target) (array.seen v)).record a (array.seen v) with
        heap := s'.heap } ∧
      array.Holds base ((idx, v) :: log) s' := by
  obtain ⟨row, x, found, levels, place⟩ := located.element grounded within.prod_pos within.length
  obtain ⟨levels', evaluated⟩ := evaluated
  obtain ⟨after, stored, assigned⟩ := holds.store_eq within v
  have value' := eval_mono (Nat.le_max_right levels levels') value _ _ _ evaluated
  have finds : Action.Approximates (config.subscript (CellC.eval config levels) row x)
      (config.subscript (CellC.eval config (max levels levels')) row x) :=
    approximates_subscript (fun id => eval_mono (Nat.le_max_left levels levels') id) row x
  have written := returns_writePlace_ok (config.program.unparen target) value' (finds _ _ _ place)
    stored
  rw [← assign_eq_writePlace found rfl] at written
  exact ⟨_, ⟨_, returns_eval_ok assignment written⟩, rfl, assigned _ rfl⟩

/-- What a course says is in the block. -/
theorem Course.holds (course : array.Course base log s) : array.Holds base log s := by
  induction course with
  | @declared eval s t ordered run visible room =>
    obtain ⟨t', run', ordered', visible', block⟩ := array.returns_declare eval ordered
    obtain ⟨-, rfl⟩ := run.unique run'
    obtain rfl : s.heap.next = base := by simpa [visible'] using visible
    exact holds_replicate_zero ordered' room block
  | assigned assignment evaluated located within _ run ih =>
    obtain ⟨s', run', -, holds⟩ := evaluates_assignment grounded assignment evaluated within
      located ih
    obtain ⟨-, rfl⟩ := Evaluates.unique run run'
    exact holds
  | passed _ ordered same ih =>
    exact { ih with ordered, block := same ▸ ih.block }

end Evaluation

end NestedArray

end Config

/-- **Nested arrays hold what was assigned.** Let a variable be declared as an array of any depth of
objects that are no arrays, no larger than the largest block. As long as its block is live and only
assignments to its elements write to it, each element that is in bounds can be read and assigned to.
It lies where row-major order puts it, apart from all other elements, and what is read is what was
last assigned to it, as the type of the elements sees it, or zero.

The array has to end before the last address: at the very end of the address space its elements
would have no addresses. The heap is in order in every state that requests lead to. -/
theorem nested_arrays_hold_assigned {config : Config} (grounded : config.program.Grounded)
    (array : config.NestedArray) :
    -- The declaration succeeds.
    (∀ eval s, s.heap.Ordered → s.heap.next.toNat + array.size ≤ maxWord →
      ∃ t, (config.declare eval array.var).Returns s (.ok ()) t ∧
        config.visibleValue? t.stack array.var = some (.array s.heap.next) ∧
        array.Course s.heap.next [] t) ∧
    (∀ base log e idx s t, array.InBounds idx → array.Locates base e idx s t →
      array.Course base log t →
      (∃ address, config.FindsPlace e s address t ∧
        address.toNat = base.toNat + array.width * rowMajor array.dims idx) ∧
      config.Evaluates e s (.ok (array.latest log idx)) (t.record e (array.latest log idx))) ∧
    (∀ base log a target value type idx v s t u,
      config.program.expr? a = some ⟨.binary .assign target value, type⟩ →
      config.Evaluates value s (.ok v) t → array.InBounds idx →
      array.Locates base (config.program.unparen target) idx t u → array.Course base log u →
      ∃ s', config.Evaluates a s (.ok (array.seen v)) s' ∧
        s' = { (u.record (config.program.unparen target) (array.seen v)).record a (array.seen v)
          with heap := s'.heap } ∧
        array.Course base ((idx, v) :: log) s') ∧
    -- Distinct elements share no byte, and none leaves the array.
    ∀ idx idx', array.InBounds idx → array.InBounds idx' → idx ≠ idx' →
      array.start idx + array.width ≤ array.size ∧
        (array.start idx + array.width ≤ array.start idx' ∨
          array.start idx' + array.width ≤ array.start idx) := by
  refine ⟨fun eval s ordered room => ?_, fun base log e idx s t within located course => ?_,
    fun base log a target value type idx v s t u assignment evaluated within located course => ?_,
    fun idx idx' within within' other => ⟨within.start_add_le, within.apart within' other⟩⟩
  · obtain ⟨t, run, -, visible, -⟩ := array.returns_declare eval ordered
    exact ⟨t, run, visible, .declared ordered run visible room⟩
  · have holds := course.holds grounded
    exact ⟨⟨_, Config.NestedArray.findsPlace grounded within located, holds.toNat_address within⟩,
      Config.NestedArray.evaluates_element grounded within located holds⟩
  · obtain ⟨s', run, same, -⟩ := Config.NestedArray.evaluates_assignment grounded assignment
      evaluated within located (course.holds grounded)
    exact ⟨s', run, same, .assigned assignment evaluated located within course run⟩

/-- A literal evaluates to itself wherever it stands. -/
theorem Config.evaluates_intLit {config : Config} {e : ExprId} {n : Cell} {type : TypeId}
    (found : config.program.expr? e = some ⟨.intLit n, type⟩) (s : State) :
    config.Evaluates e s (.ok (.int n)) (s.record e (.int n)) :=
  ⟨1, returns_eval_ok found rfl⟩

/-- The steps that declare the grid `char m[2][3]` and add the expressions `m[1][2] = 200` and
`(m[1])[1]`. -/
def charGridSteps : List Construction :=
  [.type (.array .char 3), .type (.array ⟨3⟩ 2), .var "m" ⟨4⟩ none, .expr (.ident ⟨0⟩),
    .expr (.intLit 1), .expr (.index ⟨0⟩ ⟨1⟩), .expr (.intLit 2), .expr (.index ⟨2⟩ ⟨3⟩),
    .expr (.intLit 200), .expr (.binary .assign ⟨4⟩ ⟨5⟩), .expr (.paren ⟨2⟩),
    .expr (.index ⟨7⟩ ⟨1⟩)]

/-- The program with this grid. -/
def charGrid : Config where
  program := {
    names := ⟨⟨#["", "m"]⟩⟩
    types := ⟨⟨#[.int, .char, .void, .array .char 3, .array ⟨3⟩ 2]⟩⟩
    vars := #[⟨⟨1⟩, ⟨4⟩, none⟩]
    exprs := #[⟨.ident ⟨0⟩, ⟨4⟩⟩, ⟨.intLit 1, .int⟩, ⟨.index ⟨0⟩ ⟨1⟩, ⟨3⟩⟩, ⟨.intLit 2, .int⟩,
      ⟨.index ⟨2⟩ ⟨3⟩, .char⟩, ⟨.intLit 200, .int⟩, ⟨.binary .assign ⟨4⟩ ⟨5⟩, .char⟩,
      ⟨.paren ⟨2⟩, ⟨3⟩⟩, ⟨.index ⟨7⟩ ⟨1⟩, .char⟩] }
  setup := { entry := ⟨0⟩ }

/-- The grid as a nested array. -/
def charGridArray : charGrid.NestedArray where
  var := ⟨0⟩
  decl := ⟨⟨1⟩, ⟨4⟩, none⟩
  elem := .char
  dims := [2, 3]
  declared := rfl
  nested := show charGrid.types.Nested .char ⟨4⟩ [(2 : UInt64).toNat, (3 : UInt64).toNat] from
    .array rfl (.array rfl (.object rfl))
  deep := by decide
  fits := by decide

/-- The element that was assigned to is read back as a signed character from the sixth byte, and
another one of the same row is still zero. -/
theorem nested_arrays_hold_assigned_charGrid :
    (Program.ofConstructions charGridSteps).2 = charGrid.program ∧
    ∃ t u, (charGrid.declare (CellC.eval charGrid 0) ⟨0⟩).Returns {} (.ok ()) t ∧
      charGrid.Evaluates ⟨6⟩ t (.ok (.char (-56))) u ∧
      (∃ address u', charGrid.FindsPlace ⟨4⟩ u address u' ∧ address.toNat = 0x10000005) ∧
      (∃ u', charGrid.Evaluates ⟨4⟩ u (.ok (.char (-56))) u') ∧
      ∃ u', charGrid.Evaluates ⟨8⟩ u (.ok (.char 0)) u' := by
  have steps : (Program.ofConstructions charGridSteps).2 = charGrid.program := by decide +kernel
  have fit : Program.StepsGrounded {} charGridSteps := by decide +kernel
  have grounded : charGrid.program.Grounded := steps ▸ Program.grounded_ofConstructions fit
  obtain ⟨declares, reads, writes, -⟩ := nested_arrays_hold_assigned grounded charGridArray
  obtain ⟨t, declared, visible, course⟩ :=
    declares (CellC.eval charGrid 0) {} .empty (by decide)
  have element : charGridArray.InBounds ([] ++ [1] ++ [2]) :=
    .cons (by decide) (.cons (by decide) .nil)
  have neighbour : charGridArray.InBounds ([] ++ [1] ++ [1]) :=
    .cons (by decide) (.cons (by decide) .nil)
  have locate {s : State} {base : Address}
      (visible : charGrid.visibleValue? s.stack ⟨0⟩ = some (.array base)) :
      ∃ u, charGridArray.Locates base ⟨4⟩ ([] ++ [1] ++ [2]) s u ∧ u.heap = s.heap ∧
        charGrid.visibleValue? u.stack ⟨0⟩ = some (.array base) :=
    ⟨_, .part rfl (.part rfl (.whole rfl visible) (Config.evaluates_intLit rfl _) rfl)
      (Config.evaluates_intLit rfl _) rfl, rfl,
      by simpa only [Config.visibleValue?_record] using visible⟩
  have locate' {s : State} {base : Address}
      (visible : charGrid.visibleValue? s.stack ⟨0⟩ = some (.array base)) :
      ∃ u, charGridArray.Locates base ⟨8⟩ ([] ++ [1] ++ [1]) s u ∧ u.heap = s.heap :=
    ⟨_, .part rfl (.paren rfl (.part rfl (.whole rfl visible) (Config.evaluates_intLit rfl _) rfl)
      (by decide)) (Config.evaluates_intLit rfl _) rfl, rfl⟩
  have stay {base : Address} {log : List (List Nat × Value)} {s u : State}
      (course : charGridArray.Course base log s) (same : u.heap = s.heap) :
      charGridArray.Course base log u :=
    .passed course (same ▸ (course.holds grounded).ordered) (by rw [same])
  obtain ⟨u, located, heap, seen⟩ := locate (s := t.record ⟨5⟩ (.int 200))
    (by rwa [Config.visibleValue?_record])
  obtain ⟨s, assigned, same, course⟩ := writes _ [] ⟨6⟩ ⟨4⟩ ⟨5⟩ .char _ (.int 200) t _ u rfl
    (Config.evaluates_intLit rfl t) element located (stay course heap)
  have seen : charGrid.visibleValue? s.stack ⟨0⟩ = some (.array ⟨0x10000000⟩) := by
    rw [same]
    simpa only [Config.visibleValue?_record] using seen
  obtain ⟨r, located, heap, -⟩ := locate seen
  obtain ⟨⟨address, found, position⟩, read⟩ := reads _ _ ⟨4⟩ _ s r element located
    (stay course heap)
  obtain ⟨r', located', heap'⟩ := locate' seen
  obtain ⟨-, other⟩ := reads _ _ ⟨8⟩ _ s r' neighbour located' (stay course heap')
  exact ⟨steps, t, s, declared, assigned, ⟨address, r, found, position⟩, ⟨_, read⟩, ⟨_, other⟩⟩

/-- The grid is declared even where no address is left but the last one, and its block is live
there. The element `m[1][2]` is in bounds, but its subscripts lead around the address space, and it
can be neither read nor assigned to. -/
theorem nested_array_wraps_around :
    (Program.ofConstructions charGridSteps).2 = charGrid.program ∧
    charGridArray.InBounds [1, 2] ∧
    ∃ t u, (charGrid.declare (CellC.eval charGrid 0) ⟨0⟩).Returns
        { heap := Heap.afterAll (Heap.churn 17592051827456) } (.ok ()) t ∧
      charGrid.visibleValue? t.stack ⟨0⟩ = some (.array Heap.lastAddress) ∧
      t.heap.blockAt? Heap.lastAddress =
        some ⟨Heap.lastAddress, .array, Array.replicate charGridArray.size 0⟩ ∧
      charGridArray.Locates Heap.lastAddress ⟨4⟩ [1, 2] t u ∧
      charGrid.Evaluates ⟨4⟩ t (.error (.badAddress ⟨4⟩)) u ∧
      ∃ u', charGrid.Evaluates ⟨6⟩ t (.error (.badAddress ⟨4⟩)) u' := by
  rw [Heap.afterAll_churn_eq_last]
  refine ⟨by decide +kernel, .cons (by decide) (.cons (by decide) .nil), _, _, rfl, rfl, rfl, ?_,
    ⟨4, rfl⟩, _, ⟨5, rfl⟩⟩
  show charGridArray.Locates _ ⟨4⟩ ([] ++ [1] ++ [2]) _ _
  exact .part rfl (.part rfl (.whole rfl rfl) (Config.evaluates_intLit rfl _) rfl)
    (Config.evaluates_intLit rfl _) rfl

end CellC
