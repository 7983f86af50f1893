import CellC.Proofs.Typing.Rules
import CellC.Proofs.Watch

/-!
# Values follow types

Every evaluation, execution and run of a built program keeps its states typed, and an expression
that is no conversion evaluates to a value of its static type.

## Main definitions

* `typing`: the watch on types

## Main results

* `Config.WellTyped.typedAlike_trees`: whole trees keep states typed, with or without a watch
* `values_follow_types`: the values of built programs have the types that they should have
-/

namespace CellC

open CellC.Action (Related TypedAlike)

variable {α : Type}

/-- The watch on types: whenever something begins or returns, all values have the types that they
should have. -/
def typing (program : Program) : Watch where
  entered s := s.Typed program
  returned _ s' := s'.Typed program
  callReturned _ s' := s'.Typed program

/-- The watch on types has nothing to object to an action that keeps states typed. -/
theorem Action.TypedAlike.watched {program : Program} {V : α → Prop} {action other : Action α}
    (h : TypedAlike program V action other) (alarm : Halt) :
    TypedAlike program V action
      (Action.watched alarm (State.Typed program) (fun _ => State.Typed program) other) :=
  Action.related_watched h (fun _ start => start) fun _ _ _ start run => (h.returns start run).1

namespace Config.WellTyped

variable {config : Config} (h : config.WellTyped)
include h

/-- Whole trees keep states typed and evaluate to values that the expressions may have. They end
alike under a watch on types. -/
theorem typedAlike_trees (alarm : Halt) (levels : Nat) :
    (∀ id, TypedAlike config.program (config.program.MayHave id) (CellC.eval config levels id)
      (config.watchedEval (typing config.program) alarm levels id)) ∧
    (∀ id, TypedAlike config.program (fun _ => True) (CellC.exec config levels id)
      (config.watchedExec (typing config.program) alarm levels id)) ∧
    (∀ cond body step, TypedAlike config.program (fun _ => True)
      (CellC.loop config levels cond body step)
      (config.watchedLoop (typing config.program) alarm levels cond body step)) := by
  induction levels with
  | zero =>
    refine ⟨fun id => ?_, fun id => ?_, fun cond body step => ?_⟩ <;>
      exact Related.throw_exhausted
  | succ levels ih =>
    obtain ⟨heval, hexec, hloop⟩ := ih
    have hinvoke (callee : FuncId) (values : List Value) (type : TypeId) :=
      (typedAlike_functionCall hexec callee values type).watched alarm
    refine ⟨fun id => ?_, fun id => ?_, fun cond body step => ?_⟩
    · exact (typedAlike_evaluation h heval hinvoke id).watched alarm
    · exact (typedAlike_execution heval hexec hloop id).watched alarm
    · exact typedAlike_iteration heval hexec hloop cond body step

theorem typedAlike_run (alarm : Halt) (levels : Nat) :
    TypedAlike config.program
      (config.program.types.Canonical (config.program.resultType config.setup.entry))
      (config.run levels) (config.watchedRun (typing config.program) alarm levels) := by
  obtain ⟨heval, hexec, -⟩ := h.typedAlike_trees alarm levels
  exact typedAlike_running heval fun callee values type =>
    (typedAlike_functionCall hexec callee values type).watched alarm

theorem unalarmed_typing {s : State} (start : s.Typed config.program) :
    config.Unalarmed (typing config.program) s where
  eval alarm levels id :=
    ((h.typedAlike_trees alarm levels).1 id).outcome_eq (fun _ _ same => same.1) start
  exec alarm levels id :=
    ((h.typedAlike_trees alarm levels).2.1 id).outcome_eq (fun _ _ same => same.1) start
  run alarm levels := (h.typedAlike_run alarm levels).outcome_eq (fun _ _ same => same.1) start

/-- What an expression evaluates to is a value that it may have. -/
theorem mayHave_of_eval {levels : Nat} {id : ExprId} {s s' : State} {value : Value}
    (start : s.Typed config.program)
    (run : (CellC.eval config levels id).Returns s (.ok value) s') :
    config.program.MayHave id value :=
  (((h.typedAlike_trees .exhausted levels).1 id).returns start run).2 value rfl

end Config.WellTyped

/-- Requests in sequence keep the state typed. -/
theorem Interpreter.Reachable.typed {program : Program} {settings : Settings}
    {interpreter : Interpreter} (reachable : Reachable program settings interpreter)
    (h : interpreter.config.WellTyped) : interpreter.state.Typed program := by
  induction reachable with
  | start started =>
    rw [Interpreter.state_of_start started]
    intro frame member
    obtain rfl : frame = {} := by simpa using member
    exact .empty
  | @run interpreter levels result s' earlier run ih =>
    obtain ⟨rfl, -⟩ := earlier.config_eq
    exact ((h.typedAlike_run .exhausted levels).returns (ih h) run).1
  | @eval interpreter levels id result s' earlier run ih =>
    obtain ⟨rfl, -⟩ := earlier.config_eq
    exact (((h.typedAlike_trees .exhausted levels).1 id).returns (ih h) run).1
  | @exec interpreter levels id result s' earlier run ih =>
    obtain ⟨rfl, -⟩ := earlier.config_eq
    exact (((h.typedAlike_trees .exhausted levels).2.1 id).returns (ih h) run).1

/-- **Values follow types.** In a built program whose primitives without a result are declared to
have the result type `int` or `void`, every state that requests lead to is typed: each variable is
bound to a value of its declared type, and what is recorded for an expression that is no conversion
is a value of its static type. This is so whenever an evaluation, an execution or a call begins or
returns, however deep inside a further request. From a typed state an expression that is no
conversion evaluates to a value of its static type, and a run yields a value of the entry point's
result type. -/
theorem values_follow_types {program : Program} (built : program.Built)
    (primitives : program.PrimitivesFit) {settings : Settings} {interpreter : Interpreter}
    (reachable : Interpreter.Reachable program settings interpreter) :
    interpreter.state.Typed program ∧
    interpreter.config.Unalarmed (typing program) interpreter.state ∧
    ∀ s levels value s', s.Typed program →
      (∀ id, (CellC.eval interpreter.config levels id).Returns s (.ok value) s' →
        ¬ program.IsCast id → program.types.Canonical (program.exprType id) value) ∧
      ((interpreter.config.run levels).Returns s (.ok value) s' →
        program.types.Canonical (program.resultType interpreter.config.setup.entry) value) := by
  obtain ⟨rfl, set⟩ := reachable.config_eq
  have h := Config.wellTyped_of_setup built primitives set
  have typed := reachable.typed h
  refine ⟨typed, h.unalarmed_typing typed, fun s levels value s' start => ⟨?_, ?_⟩⟩
  · intro id run
    exact h.mayHave_of_eval start run
  · intro run
    exact ((h.typedAlike_run .exhausted levels).returns start run).2 value rfl

/-- The steps that build a program with the file-scope variable `c`, a character, and an entry point
that prints the value of `c = ((char)300)` and returns `((char)300)`. -/
def narrowingSteps : List Construction :=
  [.prototype "PRINT" [.int] .void, .global "c" .char none, .function "main" .int,
    .expr (.ident ⟨1⟩), .expr (.intLit 300), .expr (.cast .explicit .char ⟨1⟩),
    .expr (.paren ⟨2⟩), .expr (.binary .assign ⟨0⟩ ⟨3⟩), .expr (.call ⟨0⟩ [⟨4⟩]),
    .stmt (.expr ⟨5⟩), .stmt (.return (some ⟨3⟩)), .stmt (.compound [⟨0⟩, ⟨1⟩]), .body ⟨1⟩ ⟨2⟩]

/-- The program with this entry point. -/
def narrowing : Program where
  names := ⟨⟨#["", "PRINT", "arg0", "c", "main"]⟩⟩
  vars := #[⟨⟨2⟩, .int, none⟩, ⟨⟨3⟩, .char, none⟩]
  exprs := #[⟨.ident ⟨1⟩, .char⟩, ⟨.intLit 300, .int⟩, ⟨.cast .explicit .char ⟨1⟩, .char⟩,
    ⟨.paren ⟨2⟩, .char⟩, ⟨.binary .assign ⟨0⟩ ⟨3⟩, .char⟩, ⟨.call ⟨0⟩ [⟨4⟩], .void⟩]
  stmts := #[.expr ⟨5⟩, .return (some ⟨3⟩), .compound [⟨0⟩, ⟨1⟩]]
  funcs := #[⟨⟨1⟩, [⟨0⟩], .void, none⟩, ⟨⟨4⟩, [], .int, some ⟨2⟩⟩]
  topLevel := #[.function ⟨0⟩, .variable ⟨1⟩, .function ⟨1⟩]

/-- The conversion yields `300`, which is no character, but what is bound and recorded has the right
type after the run and after an evaluation of the assignment. -/
theorem values_follow_types_narrowing :
    ∃ interpreter s' t v, Interpreter.start narrowing {} = .ok interpreter ∧
      (interpreter.config.run 9).Returns interpreter.state (.ok (.int 300)) s' ∧
      interpreter.config.visibleValue? s'.stack ⟨1⟩ = some (.char 44) ∧
      (CellC.eval interpreter.config 9 ⟨4⟩).Returns s' (.ok v) t ∧
      t.Typed narrowing ∧ narrowing.types.Canonical .char v ∧
      t.stack.root.recorded ⟨3⟩ = some (.int 300) ∧
      ¬ narrowing.types.Canonical .char (.int 300) := by
  have steps : (Program.ofConstructions narrowingSteps).2 = narrowing := by decide +kernel
  have fit : Program.StepsFit {} narrowingSteps := by decide +kernel
  have built : narrowing.Built := steps ▸ Program.built_ofConstructions fit
  have primitives : narrowing.PrimitivesFit := by
    rintro ⟨_ | _ | i⟩ decl found -
    · cases found
      exact .inr rfl
    · cases found
      exact .inl rfl
    · cases found
  have assignment : ¬ narrowing.IsCast ⟨4⟩ := by
    intro cast
    cases cast with
    | cast found => cases found
    | paren found _ => cases found
  have run : ∃ interpreter s' t v, Interpreter.start narrowing {} = .ok interpreter ∧
      (interpreter.config.run 9).Returns interpreter.state (.ok (.int 300)) s' ∧
      interpreter.config.visibleValue? s'.stack ⟨1⟩ = some (.char 44) ∧
      (CellC.eval interpreter.config 9 ⟨4⟩).Returns s' (.ok v) t ∧
      t.stack.root.recorded ⟨3⟩ = some (.int 300) :=
    ⟨_, _, _, _, rfl, rfl, rfl, rfl, rfl⟩
  obtain ⟨interpreter, s', t, v, started, run, bound, evaluated, passed⟩ := run
  have ran := Interpreter.Reachable.run (.start started) run
  obtain ⟨typed, -, fits⟩ := values_follow_types built primitives ran
  obtain ⟨typed', -, -⟩ := values_follow_types built primitives (.eval ran evaluated)
  have canonical := (fits s' 9 v t typed).1 ⟨4⟩ evaluated assignment
  refine ⟨interpreter, s', t, v, started, run, bound, evaluated, typed', canonical, passed, ?_⟩
  decide

end CellC
