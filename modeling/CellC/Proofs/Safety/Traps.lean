import CellC.Proofs.Heap.Checked
import CellC.Proofs.Safety.Footprint
import CellC.Proofs.Safety.Halts

/-!
# No request is cut short

Whatever an orderly program is asked to do, a request that ends yields a result or a fault. Nothing
that it looks up is missing, no access to memory leaves the bytes of its block, a primitive finds
its argument, and nothing is divided by zero.

## Main definitions

* `BinaryOp.applyChecked`, `Config.primitiveCallChecked`: operators and primitives with checks
* `Job.Safe`: all that a request does by itself is within range

## Main results

* `requests_never_trap`: every request of an orderly program is safe, and so are all its parts
-/

namespace CellC

variable {α β : Type}

/-! ### Checked operators and primitives -/

/-- A quotient by anything but zero. -/
def quotient? (a b : Cell) : Option Cell := if b = 0 then none else some (a / b)

/-- The value of a binary operator, with the divisor checked. -/
def BinaryOp.applyChecked (op : BinaryOp) (a b : Cell) : Option (Except Fault Cell) :=
  match op with
  | div => if b = 0 then some (.error .divisionByZero) else (quotient? a b).map .ok
  | op => some (op.apply a b)

/-- No operator divides by zero. -/
theorem BinaryOp.applyChecked_eq (op : BinaryOp) (a b : Cell) :
    op.applyChecked a b = some (op.apply a b) := by
  cases op with
  | div =>
    by_cases zero : b = 0
    · simp [applyChecked, apply, zero]
    · simp [applyChecked, apply, quotient?, zero]
  | assign | add | sub | mul | rem | lt | gt | le | ge | eq | ne => rfl
  | bitAnd | bitOr | logicalAnd | logicalOr => rfl

namespace Config

variable (config : Config)

/-- The value of a call of a primitive, which has to find the argument that it takes. -/
def primitiveCallChecked (primitive : Primitive) (values : List Value) (type : TypeId) :
    Action (Option Value) := do
  checkArity primitive.name primitive.arity values.length
  match primitive, values[0]? with
  | .read, _ => do
    if config.prompt then Action.println promptLine
    some <$> config.readValue type
  | _, none => pure none
  | .print, some argument => do
    Action.println argument.cell.text
    pure (some .zero)
  | .allocate, some argument => do
    let base ← Action.allocate argument.cell .explicit
    pure (some (config.types.view type base.toCell))
  | .free, some argument => do
    discard <| Action.release argument.address
    pure (some .zero)

/-- The number of arguments has been checked before a primitive takes one. -/
theorem primitiveCallChecked_eq (primitive : Primitive) (values : List Value) (type : TypeId) :
    config.primitiveCallChecked primitive values type =
      some <$> config.primitiveCall primitive values type := by
  unfold primitiveCallChecked primitiveCall
  rw [map_bind]
  unfold checkArity
  split
  · next arity =>
    cases primitive with
    | read =>
      obtain rfl := List.length_eq_zero_iff.mp arity
      dsimp only
      split <;> simp
    | print | allocate | free =>
      obtain ⟨argument, rfl⟩ := List.length_eq_one_iff.mp arity
      simp
  · rfl

end Config

/-! ### Requests that refer to what is there -/

/-- A request that refers to what is there never comes to a node or declaration that is missing. -/
theorem Config.neverDangles_carryOut {config : Config} (intact : config.program.Intact)
    (leads : config.setup.Leads config.program) (levels : Nat) (request : Request)
    (fits : request.Fits config.program) :
    Action.Avoids .dangling (config.carryOut levels request) := by
  intro s t halted
  have grave (fault : Fault) : Halt.dangling ≠ .fault fault := nofun
  obtain ⟨job, contains, ⟨-, missing⟩ | ⟨exhausted, -⟩⟩ := source_of_halted grave halted
  · exact missing (fits_of_contains intact leads contains fits)
  · cases exhausted

/-! ### Safe requests -/

/-- All that a job does by itself is within range: what it looks up is there, the target of an
assignment is found under its parentheses, and an access to memory passes its checks. That a job
looks up nothing but what it is listed to consult is `Config.carryOut_withNodes`. -/
structure Job.Safe (config : Config) (job : Job) : Prop where
  lookups : ∀ reference ∈ config.consulted job.request, config.program.Has reference
  target : ∀ id target value type inner, job.request = .evaluate id →
    config.program.expr? id = some ⟨.binary .assign target value, type⟩ →
    (config.program.expr? (config.program.unparen target)).map Expr.form ≠ some (.paren inner)
  load : ∀ address type, job.request = .operate (.load address type) →
    job.state.heap.loadChecked address (config.types.width type) =
      some (job.state.heap.load address (config.types.width type))
  store : ∀ address type value, job.request = .operate (.store address type value) →
    job.state.heap.storeChecked address (config.types.width type) value.cell =
      some (job.state.heap.store address (config.types.width type) value.cell)

theorem Config.safe_of_fits {config : Config} (intact : config.program.Intact)
    (leads : config.setup.Leads config.program) {job : Job}
    (fits : job.request.Fits config.program) : job.Safe config where
  lookups _ member := has_of_consulted intact leads fits member
  target _ target _ _ inner _ _ := intact.parensDescend.unparen_ne_paren target inner
  load _ _ _ := Heap.loadChecked_eq _
  store _ _ _ _ := Heap.storeChecked_eq _ _

/-- What an interpreter of an orderly program is asked ends with a result or a fault, if it ends,
provided that it refers to what is there; the request and all its parts are safe. Setting the
program up finds every declaration, primitives find their arguments, and nothing is divided by
zero.

The parts of a request are those of the rules, by `Config.eval_eq_run`, `Config.exec_eq_run`,
`Config.loop_eq_run`, `Config.functionCall_eq_run` and `Config.run_eq_run`, and what is consulted in
its course is all that the evaluator depends on, by `Config.carryOut_withNodes`. -/
theorem requests_never_trap {program : Program} (orderly : program.Orderly) :
    (∀ decl ∈ program.topLevel.toList, program.Has decl.reference) ∧
    (∀ (op : BinaryOp) (a b : Cell), op.applyChecked a b = some (op.apply a b)) ∧
    ∀ settings interpreter, Interpreter.Reachable program settings interpreter →
      (∀ primitive values type, interpreter.config.primitiveCallChecked primitive values type =
        some <$> interpreter.config.primitiveCall primitive values type) ∧
      ∀ levels (request : Request), request.Fits program →
        (∀ halt s', (interpreter.config.carryOut levels request).run interpreter.state =
          .error halt s' → halt = .exhausted ∨ ∃ fault, halt = .fault fault) ∧
        ∀ job, interpreter.config.Contains ⟨levels, request, interpreter.state⟩ job →
          job.Safe interpreter.config := by
  have intact := orderly.intact
  refine ⟨fun decl member => intact.has_of_topLevel member, BinaryOp.applyChecked_eq,
    fun settings interpreter reachable => ?_⟩
  obtain ⟨rfl, set⟩ := reachable.config_eq
  have leads := Program.leads_of_setup intact set
  refine ⟨interpreter.config.primitiveCallChecked_eq, fun levels request fits => ⟨?_, ?_⟩⟩
  · intro halt s' halted
    cases halt with
    | fault fault => exact .inr ⟨fault, rfl⟩
    | exhausted => exact .inl rfl
    | dangling =>
      exact absurd halted (Config.neverDangles_carryOut intact leads levels request fits _ _)
  · intro job contains
    exact Config.safe_of_fits intact leads (Config.fits_of_contains intact leads contains fits)

/-- The steps that build an array `cell` of one integer and an entry point that prints the value of
`(cell[0]) = 8` and returns `8 / 0`. -/
def divisionSteps : List Construction :=
  [.prototype "PRINT" [.int] .void, .type (.array .int 1), .global "cell" ⟨3⟩ none,
    .function "main" .int, .expr (.ident ⟨1⟩), .expr (.intLit 0), .expr (.index ⟨0⟩ ⟨1⟩),
    .expr (.paren ⟨2⟩), .expr (.intLit 8), .expr (.binary .div ⟨4⟩ ⟨1⟩),
    .expr (.binary .assign ⟨3⟩ ⟨4⟩), .expr (.call ⟨0⟩ [⟨6⟩]), .stmt (.expr ⟨7⟩),
    .stmt (.return (some ⟨5⟩)), .stmt (.compound [⟨0⟩, ⟨1⟩]), .body ⟨1⟩ ⟨2⟩]

/-- The program with this entry point. -/
def divisionByNothing : Program where
  names := ⟨⟨#["", "PRINT", "arg0", "cell", "main"]⟩⟩
  types := ⟨⟨#[.int, .char, .void, .array .int 1]⟩⟩
  vars := #[⟨⟨2⟩, .int, none⟩, ⟨⟨3⟩, ⟨3⟩, none⟩]
  exprs := #[⟨.ident ⟨1⟩, ⟨3⟩⟩, ⟨.intLit 0, .int⟩, ⟨.index ⟨0⟩ ⟨1⟩, .int⟩, ⟨.paren ⟨2⟩, .int⟩,
    ⟨.intLit 8, .int⟩, ⟨.binary .div ⟨4⟩ ⟨1⟩, .int⟩, ⟨.binary .assign ⟨3⟩ ⟨4⟩, .int⟩,
    ⟨.call ⟨0⟩ [⟨6⟩], .void⟩]
  stmts := #[.expr ⟨7⟩, .return (some ⟨5⟩), .compound [⟨0⟩, ⟨1⟩]]
  funcs := #[⟨⟨1⟩, [⟨0⟩], .void, none⟩, ⟨⟨4⟩, [], .int, some ⟨2⟩⟩]
  topLevel := #[.function ⟨0⟩, .variable ⟨1⟩, .function ⟨1⟩]

/-- The array is written to through parentheses, eight is printed, and the run ends with a fault. -/
theorem requests_never_trap_divisionByNothing :
    ∃ interpreter s', divisionByNothing.Orderly ∧
      Interpreter.start divisionByNothing { channel := .buffer } = .ok interpreter ∧
      (interpreter.config.carryOut 9 .run).Returns interpreter.state (.error .divisionByZero) s' ∧
      s'.printer.lines = #["8"] ∧
      ∀ job, interpreter.config.Contains ⟨9, .run, interpreter.state⟩ job →
        job.Safe interpreter.config := by
  have steps : (Program.ofConstructions divisionSteps).2 = divisionByNothing := by decide +kernel
  have fit : Program.StepsOrderly {} divisionSteps := by decide +kernel
  have orderly : divisionByNothing.Orderly := steps ▸ Program.orderly_ofConstructions fit
  have ran : ∃ interpreter s',
      Interpreter.start divisionByNothing { channel := .buffer } = .ok interpreter ∧
      (interpreter.config.carryOut 9 .run).Returns interpreter.state (.error .divisionByZero) s' ∧
      s'.printer.lines = #["8"] :=
    ⟨_, _, rfl, rfl, rfl⟩
  obtain ⟨interpreter, s', started, run, printed⟩ := ran
  obtain ⟨-, -, interpreters⟩ := requests_never_trap orderly
  obtain ⟨-, requests⟩ := interpreters _ interpreter (.start started)
  exact ⟨interpreter, s', orderly, started, run, printed, (requests 9 .run nofun).2⟩

end CellC
