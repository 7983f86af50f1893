import CellC.Proofs.FileScope.Steady
import CellC.Proofs.Operations

/-!
# How file-scope variables come to life

A run that finds the file-scope variables not ready makes a pass over their declarations: it makes
the arrays and evaluates the initializers, in order of declaration. They count as ready only when
such a pass has come to its end. A pass that a fault cuts short leaves them as unready as they were,
and the next run makes a new one from the first declaration on. So every pass that is begun may
leave one block for each array behind; once a pass was completed, there is none any more.

## Main definitions

* `Script.evaluations`: the expressions that a script has evaluated, in their order
* `Config.fileScopeArrays`, `Config.initializers`: what a pass makes and evaluates
* `Config.Initialization`: what a run does to file-scope variables
* `Interpreter.Runs`: a sequence of runs, with the number of passes that they began

## Main results

* `Config.initialization_of_run`: a run between calls makes a pass, or has no need to
* `initialization_passes`: what a sequence of runs does to file-scope variables
-/

namespace CellC

variable {α β : Type}

/-! ### The evaluations of a script -/

/-- The expression that a request has evaluated, if it is a request for that. -/
def Request.evaluated : Request → List ExprId
  | evaluate id => [id]
  | operate _ | execute _ | iterate _ _ _ | invoke _ _ _ | run => []

namespace Script

variable (carryOut : (request : Request) → Action request.Answer)

/-- The expressions that a script itself has evaluated when it is carried out, in their order. The
last of them may be one whose evaluation went wrong. -/
def evaluations : Script α → State → List ExprId
  | done _, _ => []
  | ask request next, s =>
    request.evaluated ++
      match (carryOut request).run s with
      | .ok answer t => (next answer).evaluations t
      | .error _ _ => []

variable {carryOut} {s t : State}

theorem evaluations_bind (script : Script α) (next : α → Script β) :
    (script >>= next).evaluations carryOut s =
      script.evaluations carryOut s ++
        match (script.run carryOut).run s with
        | .ok a t => (next a).evaluations carryOut t
        | .error _ _ => [] := by
  induction script generalizing s with
  | done a => rfl
  | ask request rest ih =>
    show evaluations carryOut (ask request fun answer => rest answer >>= next) s = _
    rw [evaluations, evaluations, run, EStateM.run_bind, List.append_assoc]
    cases (carryOut request).run s with
    | ok answer t => exact congrArg _ (ih answer)
    | error halt t => rfl

theorem evaluations_request (request : Request) :
    (Script.request request).evaluations carryOut s = request.evaluated := by
  rw [Script.request, evaluations]
  split <;> exact List.append_nil _

theorem Asks.evaluations_eq_nil {script : Script α} (asks : script.Asks (·.evaluated = [])) :
    script.evaluations carryOut s = [] := by
  induction script generalizing s with
  | done a => rfl
  | ask request next ih =>
    rw [evaluations, asks.1, List.nil_append]
    split
    · exact ih _ (asks.2 _)
    · rfl

/-- What asks for no evaluation adds none. -/
theorem evaluations_bind_of_asks (script : Script α) {next : α → Script β}
    (rest : ∀ a, (next a).Asks (·.evaluated = [])) :
    (script >>= next).evaluations carryOut s = script.evaluations carryOut s := by
  rw [evaluations_bind]
  split
  · rw [(rest _).evaluations_eq_nil, List.append_nil]
  · exact List.append_nil _

end Script

/-! ### New arrays -/

/-- From one state to the other the innermost activation made at most `count` arrays, and exactly
that many if what it did was complete. File-scope variables did not become ready. -/
structure State.Gains (s : State) (count : Nat) (complete : Bool) (t : State) : Prop where
  ready : s.AsReady t
  arrays : ∃ made, t.stack.top.arrays = s.stack.top.arrays ++ made ∧ made.length ≤ count ∧
    (complete = true → made.length = count)

/-- The action makes `count` arrays in the innermost activation if it comes to its end, and at most
that many if it goes wrong. -/
def Action.Gains (action : Action α) (count : Nat) : Prop :=
  ∀ ⦃s result t⦄, action.Returns s result t → s.Gains count result.isOk t

namespace Action

theorem Steady.gains {action : Action α} (steady : action.Steady) : action.Gains 0 := by
  intro s result t returned
  obtain ⟨arrays, ready⟩ := steady returned
  exact ⟨ready, [], by rw [arrays, List.append_nil], Nat.le_refl 0, fun _ => rfl⟩

namespace Gains

protected theorem bind {action : Action α} {next : α → Action β} {first rest : Nat}
    (gains : action.Gains first) (gains' : ∀ a, (next a).Gains rest) :
    (action >>= next).Gains (first + rest) := by
  intro s result t returned
  obtain ⟨a, u, acted, rested⟩ | ⟨fault, rfl, failed⟩ := Action.returns_bind_iff.mp returned
  · obtain ⟨ready, made, arrays, -, all⟩ := gains acted
    obtain ⟨ready', made', arrays', few, all'⟩ := gains' a rested
    have all : made.length = first := all rfl
    refine ⟨ready'.trans ready, made ++ made', ?_, ?_, fun complete => ?_⟩
    · rw [arrays', arrays, List.append_assoc]
    · rw [List.length_append, all]
      exact Nat.add_le_add_left few first
    · rw [List.length_append, all, all' complete]
  · obtain ⟨ready, made, arrays, few, -⟩ := gains failed
    exact ⟨ready, made, arrays, Nat.le_add_right_of_le few, nofun⟩

theorem bind_steady {action : Action α} {next : α → Action β} {count : Nat}
    (gains : action.Gains count) (rest : ∀ a, (next a).Steady) : (action >>= next).Gains count :=
  gains.bind fun a => (rest a).gains

theorem newArray (size : Cell) : (Action.newArray size).Gains 1 := by
  have adopted (base : Address) : (Action.modifyTop (·.adopt base)).Gains 1 := by
    intro s result t returned
    cases result <;> cases returned
    exact ⟨rfl, [base], by rw [CallStack.top_modifyTop]; rfl, Nat.le_refl 1, fun _ => rfl⟩
  exact (Steady.allocate size .array).gains.bind fun base =>
    (adopted base).bind_steady fun _ => .pure _

end Gains

end Action

/-- Between calls the innermost frame is the file-scope frame. -/
theorem CallStack.top_of_nil {stack : CallStack} (outside : stack.calls = []) :
    stack.top = stack.root := by
  unfold top
  rw [outside]
  rfl

/-- The state in which a run looks whether the file-scope variables are ready. -/
def State.noted (s : State) : State := { s with journal := s.journal.push .run }

/-! ### Passes over declarations -/

namespace Config

section Declarations

variable (config : Config)

/-- Whether the declaration of a variable makes an array. -/
def declaresArray (var : VarId) : Bool :=
  (config.program.var? var).any fun decl => config.types.isArray decl.type

/-- The initializer that the declaration of a variable evaluates. That of an array is passed
over. -/
def initializer? (var : VarId) : Option ExprId :=
  (config.program.var? var).bind fun decl =>
    if config.types.isArray decl.type then none else decl.init

/-- The number of file-scope arrays. -/
def fileScopeArrays : Nat := config.setup.globals.countP config.declaresArray

/-- The initializers of file-scope variables in order of declaration. -/
def initializers : List ExprId := config.setup.globals.filterMap config.initializer?

end Declarations

variable {config : Config} {levels : Nat} {s t : State}

theorem gains_startValue (decl : VarDecl) :
    (config.startValue (CellC.eval config levels) decl).Gains
      (if config.types.isArray decl.type then 1 else 0) := by
  unfold startValue
  split
  · exact .newArray _
  · cases decl.init with
    | some init => exact ((steady_evaluate levels init).bind fun _ => .pure _).gains
    | none => exact (Action.Steady.pure _).gains

theorem gains_declare (var : VarId) :
    (config.declare (CellC.eval config levels) var).Gains
      (if config.declaresArray var then 1 else 0) := by
  unfold declare declaresArray
  cases config.program.var? var with
  | none =>
    intro s result t returned
    cases result <;> cases returned
  | some decl =>
    show Action.Gains (config.startValue (CellC.eval config levels) decl >>= fun value =>
      Action.emit (.declare var value) >>= fun _ => Action.bind var value)
      (if config.types.isArray decl.type then 1 else 0)
    exact (gains_startValue decl).bind_steady fun value =>
      (Action.Steady.emit _).bind fun _ => .modifyTop fun _ => rfl

theorem gains_declareAll (vars : List VarId) :
    (config.declareAll (CellC.eval config levels) vars).Gains
      (vars.countP config.declaresArray) := by
  induction vars with
  | nil => exact (Action.Steady.pure _).gains
  | cons var vars ih =>
    rw [List.countP_cons, Nat.add_comm]
    exact (gains_declare var).bind fun _ => ih

section Evaluations

variable {carryOut : (request : Request) → Action request.Answer}

theorem evaluations_startScript (decl : VarDecl) :
    (config.startScript decl).evaluations carryOut s =
      if config.types.isArray decl.type then [] else decl.init.toList := by
  unfold startScript
  split
  · exact Script.Asks.evaluations_eq_nil ⟨rfl, fun _ => trivial⟩
  · cases decl.init with
    | some init =>
      refine (Script.evaluations_bind_of_asks (Script.evaluate init) fun value => ?_).trans
        (Script.evaluations_request (.evaluate init))
      trivial
    | none => rfl

end Evaluations

theorem evaluations_declareScript (var : VarId) :
    (config.declareScript var).evaluations (config.carryOut levels) s =
      (config.initializer? var).toList := by
  unfold declareScript initializer?
  rw [Script.evaluations_bind, carryOut_eq_answer, run_operate, ← carryOut_eq_answer,
    Script.operate, Script.evaluations_request, perform]
  cases config.program.var? var with
  | none => rfl
  | some decl =>
    refine (Script.evaluations_bind_of_asks (config.startScript decl) fun value => ?_).trans ?_
    · exact ⟨rfl, fun _ => ⟨rfl, fun _ => trivial⟩⟩
    · rw [evaluations_startScript, Option.bind_some]
      split <;> rfl

/-- A pass evaluates initializers in order of declaration, from the first one on, and all of them if
it comes to its end. -/
theorem evaluations_declareAllScript (config : Config) (levels : Nat) (vars : List VarId)
    (s : State) :
    let evaluated := (config.declareAllScript vars).evaluations (config.carryOut levels) s
    evaluated <+: vars.filterMap config.initializer? ∧
      ∀ t, (config.declareAll (CellC.eval config levels) vars).Returns s (.ok ()) t →
        evaluated = vars.filterMap config.initializer? := by
  induction vars generalizing s with
  | nil => exact ⟨List.prefix_refl _, fun _ _ => rfl⟩
  | cons var vars ih =>
    have parts : (config.declareAllScript (var :: vars)).evaluations (config.carryOut levels) s =
        (config.initializer? var).toList ++
          match (config.declare (CellC.eval config levels) var).run s with
          | .ok _ t => (config.declareAllScript vars).evaluations (config.carryOut levels) t
          | .error _ _ => [] := by
      refine (Script.evaluations_bind (config.declareScript var) fun _ =>
        config.declareAllScript vars).trans ?_
      rw [evaluations_declareScript, carryOut_eq_answer, run_declareScript]
      cases (config.declare (CellC.eval config levels) var).run s <;> rfl
    rw [parts, List.filterMap_eq_flatMap_toList, List.flatMap_cons,
      ← List.filterMap_eq_flatMap_toList]
    dsimp only
    refine ⟨(List.prefix_append_right_inj _).mpr ?_, fun t returned => congrArg _ ?_⟩
    · split
      · exact (ih _).1
      · exact List.nil_prefix
    · obtain ⟨_, u, declared, rest⟩ := returned.of_bind
      unfold Action.Returns at declared
      rw [declared]
      exact (ih u).2 t rest

/-! ### Passes of runs -/

/-- What a run does after it has looked after the file-scope variables: it calls the entry point. -/
def entryScript (config : Config) : Script Value := do
  let decl ← Script.operate (.func config.setup.entry)
  let values := List.replicate decl.params.length Value.zero
  let value ← Script.invoke config.setup.entry values decl.ret
  Script.operate (.note (.entryReturned value))
  pure value

theorem asks_entryScript :
    config.entryScript.Asks fun request => request.IsSteady ∧ request.evaluated = [] :=
  ⟨⟨trivial, rfl⟩, fun _ => ⟨⟨trivial, rfl⟩, fun _ => ⟨⟨trivial, rfl⟩, fun _ => trivial⟩⟩⟩

/-- A run itself evaluates nothing but what its pass evaluates, if it makes one. -/
theorem evaluations_runScript :
    config.runScript.evaluations (config.carryOut levels) s =
      if s.globalsReady then []
      else (config.declareAllScript config.setup.globals).evaluations (config.carryOut levels)
        s.noted := by
  have parts : config.runScript.evaluations (config.carryOut levels) s =
      config.readyScript.evaluations (config.carryOut levels) s.noted :=
    Script.evaluations_bind_of_asks config.readyScript fun _ =>
      asks_entryScript.mono fun _ quiet => quiet.2
  have ready : config.readyScript.evaluations (config.carryOut levels) s.noted =
      (if !s.globalsReady then do
        config.declareAllScript config.setup.globals
        Script.operate .setGlobalsReady
      else pure () : Script Unit).evaluations (config.carryOut levels) s.noted := rfl
  rw [parts, ready]
  cases s.globalsReady with
  | true => rfl
  | false => exact Script.evaluations_bind_of_asks _ fun _ => ⟨rfl, fun _ => trivial⟩

/-- A run finds the file-scope variables ready and goes on steadily. Otherwise it makes a pass,
which either goes wrong and ends the run, or comes to its end and makes them ready. -/
theorem passes_of_run {result : Except Fault Value}
    (returned : (config.run levels).Returns s result t) :
    s.globalsReady = true ∧ s.Steady t ∨
    s.globalsReady = false ∧ ∃ outcome u,
      (config.declareAll (CellC.eval config levels) config.setup.globals).Returns s.noted outcome
        u ∧
      ((∃ fault, outcome = .error fault ∧ result = .error fault ∧ t = u) ∨
        outcome = .ok () ∧ State.Steady { u with globalsReady := true } t) := by
  have entry {u : State} (rest : (config.entryScript.run (config.carryOut levels)).Returns u result
      t) : u.Steady t := steady_script (asks_entryScript.mono fun _ quiet => quiet.1) rest
  have run : ((do
      if !s.globalsReady then
        config.declareAll (CellC.eval config levels) config.setup.globals
        modify fun state => { state with globalsReady := true }) >>= fun _ =>
      config.entryScript.run (config.carryOut levels) : Action Value).Returns s.noted result t :=
    returned
  cases ready : s.globalsReady with
  | true =>
    rw [ready] at run
    have steady : s.noted.Steady t := entry run
    exact .inl ⟨rfl, steady.arrays, steady.ready⟩
  | false =>
    rw [ready, Bool.not_false, if_pos rfl, bind_assoc] at run
    refine .inr ⟨rfl, ?_⟩
    obtain ⟨_, u, passed, rest⟩ | ⟨fault, rfl, failed⟩ := Action.returns_bind_iff.mp run
    · exact ⟨.ok (), u, passed, .inr ⟨rfl, entry rest⟩⟩
    · exact ⟨.error fault, t, failed, .inl ⟨fault, rfl, rfl, rfl⟩⟩

/-- What a run does to file-scope variables: given the expressions that it evaluated itself, the
states before and after, and its result. -/
inductive Initialization (config : Config) (s : State) (evaluated : List ExprId)
    (result : Except Fault Value) (t : State) : Prop
  /-- Variables that are ready stay so, and nothing is done about them. -/
  | notNeeded : s.globalsReady = true → t.globalsReady = true → evaluated = [] →
    t.stack.root.arrays = s.stack.root.arrays → Initialization config s evaluated result t
  /-- A fault cuts a pass short. It began with the first declaration, and the variables are as
  unready as before. -/
  | cutShort {made fault} : s.globalsReady = false → t.globalsReady = false →
    result = .error fault → evaluated <+: config.initializers →
    t.stack.root.arrays = s.stack.root.arrays ++ made → made.length ≤ config.fileScopeArrays →
    Initialization config s evaluated result t
  /-- A pass comes to its end: all arrays are made and all initializers evaluated. -/
  | completed {made} : s.globalsReady = false → t.globalsReady = true →
    evaluated = config.initializers →
    t.stack.root.arrays = s.stack.root.arrays ++ made → made.length = config.fileScopeArrays →
    Initialization config s evaluated result t

theorem undisturbed_run {result : Except Fault Value}
    (returned : (config.run levels).Returns s result t) :
    s.stack.Undisturbed config.setup t.stack :=
  ((stack_discipline config levels s t).2.2.1 result returned).1

/-- A run between calls has no need of a pass over the declarations or makes one. -/
theorem initialization_of_run {result : Except Fault Value} (outside : s.stack.calls = [])
    (returned : (config.run levels).Returns s result t) :
    config.Initialization s (config.runScript.evaluations (config.carryOut levels) s) result t := by
  have outside' := (undisturbed_run returned).calls_eq_nil_iff.mpr outside
  have root : s.stack.top = s.stack.root := CallStack.top_of_nil outside
  have root' : t.stack.top = t.stack.root := CallStack.top_of_nil outside'
  rw [evaluations_runScript]
  obtain ⟨ready, steady⟩ | ⟨unready, outcome, u, passed, ends⟩ := passes_of_run returned
  · rw [if_pos ready]
    exact .notNeeded ready (steady.ready.trans ready) rfl (root ▸ root' ▸ steady.arrays)
  obtain ⟨first, all⟩ :=
    config.evaluations_declareAllScript levels config.setup.globals s.noted
  obtain ⟨same, made, arrays, few, exactly⟩ := gains_declareAll config.setup.globals passed
  have arrays : u.stack.top.arrays = s.stack.root.arrays ++ made := root ▸ arrays
  rw [if_neg (unready ▸ nofun)]
  obtain ⟨fault, rfl, failed, rfl⟩ | ⟨rfl, steady⟩ := ends
  · exact .cutShort unready (same.trans unready) failed first (root' ▸ arrays) few
  · exact .completed unready steady.ready (all u passed) (root' ▸ steady.arrays.trans arrays)
      (exactly rfl)

end Config

/-! ### Runs in sequence -/

/-- The interpreters of a program that runs lead to, one after the other and each with a result or a
fault, together with the number of passes over the file-scope declarations that the runs began. -/
inductive Interpreter.Runs (program : Program) (settings : Settings) : Nat → Interpreter → Prop
  | start {interpreter} :
    Interpreter.start program settings = .ok interpreter → Runs program settings 0 interpreter
  | run {passes interpreter levels result t} : Runs program settings passes interpreter →
    (interpreter.config.run levels).Returns interpreter.state result t →
    Runs program settings (if interpreter.state.globalsReady then passes else passes + 1)
      { interpreter with state := t }

namespace Interpreter.Runs

variable {program : Program} {settings : Settings} {passes : Nat} {interpreter : Interpreter}

theorem calls_eq_nil (runs : Runs program settings passes interpreter) :
    interpreter.state.stack.calls = [] := by
  induction runs with
  | start started => rw [state_of_start started]
  | run _ returned ih => exact (Config.undisturbed_run returned).calls_eq_nil_iff.mpr ih

/-- Every pass that is begun makes one block for each file-scope array at most. -/
theorem length_arrays_le (runs : Runs program settings passes interpreter) :
    interpreter.state.stack.root.arrays.length ≤ passes * interpreter.config.fileScopeArrays := by
  induction runs with
  | start started =>
    rw [state_of_start started]
    exact Nat.zero_le _
  | @run passes interpreter levels result t earlier returned ih =>
    show t.stack.root.arrays.length ≤ _ * interpreter.config.fileScopeArrays
    have more {made : List Address} (unready : interpreter.state.globalsReady = false)
        (arrays : t.stack.root.arrays = interpreter.state.stack.root.arrays ++ made)
        (few : made.length ≤ interpreter.config.fileScopeArrays) : t.stack.root.arrays.length ≤
          (if interpreter.state.globalsReady then passes else passes + 1) *
            interpreter.config.fileScopeArrays := by
      rw [if_neg (unready ▸ nofun), arrays, List.length_append, Nat.succ_mul]
      exact Nat.add_le_add ih few
    cases Config.initialization_of_run earlier.calls_eq_nil returned with
    | notNeeded ready _ _ arrays =>
      rw [if_pos ready, arrays]
      exact ih
    | cutShort unready _ _ _ arrays few => exact more unready arrays few
    | completed unready _ _ arrays exactly => exact more unready arrays (Nat.le_of_eq exactly)

end Interpreter.Runs

/-- **File-scope variables are initialized in passes until one comes to its end.** After any
sequence of runs on one interpreter, whatever each of them returned, the file-scope frame lists at
most one block for each file-scope array and each pass that was begun. The next run makes no pass if
the variables are ready: it evaluates no initializer and the frame keeps its list of arrays.
Otherwise it evaluates the initializers from the first one on, also those that an earlier run
completed, each at most once for its declaration and in that order; only a fault ends this before
all are evaluated, and then the variables are as unready as before. -/
theorem initialization_passes {program : Program} {settings : Settings} {passes : Nat}
    {interpreter : Interpreter}
    (runs : Interpreter.Runs program settings passes interpreter) :
    interpreter.state.stack.root.arrays.length ≤ passes * interpreter.config.fileScopeArrays ∧
    ∀ levels result t, (interpreter.config.run levels).Returns interpreter.state result t →
      interpreter.config.Initialization interpreter.state
        (interpreter.config.runScript.evaluations (interpreter.config.carryOut levels)
          interpreter.state) result t :=
  ⟨runs.length_arrays_le,
    fun _ _ _ returned => Config.initialization_of_run runs.calls_eq_nil returned⟩

/-- An array of two integers, a variable whose initializer prints seven, and a variable whose
initializer divides by zero, all of file scope, and an entry point that returns such a quotient. -/
def failsAtTheLast : Program where
  types := ⟨⟨#[.int, .char, .void, .array .int 2]⟩⟩
  names := ⟨⟨#["", "PRINT", "a", "y", "x", "main"]⟩⟩
  vars := #[⟨⟨2⟩, ⟨3⟩, none⟩, ⟨⟨3⟩, .int, some ⟨1⟩⟩, ⟨⟨4⟩, .int, some ⟨4⟩⟩]
  exprs := #[⟨.intLit 7, .int⟩, ⟨.call ⟨0⟩ [⟨0⟩], .int⟩, ⟨.intLit 1, .int⟩, ⟨.intLit 0, .int⟩,
    ⟨.binary .div ⟨2⟩ ⟨3⟩, .int⟩]
  stmts := #[.return (some ⟨4⟩)]
  funcs := #[⟨⟨1⟩, [], .int, none⟩, ⟨⟨5⟩, [], .int, some ⟨0⟩⟩]
  topLevel := #[.function ⟨0⟩, .variable ⟨0⟩, .variable ⟨1⟩, .variable ⟨2⟩, .function ⟨1⟩]

/-- After a first run that failed the frame lists one block, and the second run begins with the
first initializer again. -/
theorem initialization_passes_failsAtTheLast :
    ∃ interpreter, Interpreter.start failsAtTheLast {} = .ok interpreter ∧
      ∃ s t, (interpreter.config.run 9).Returns interpreter.state (.error .divisionByZero) s ∧
        s.stack.root.arrays.length ≤ 1 * interpreter.config.fileScopeArrays ∧
        (interpreter.config.run 9).Returns s (.error .divisionByZero) t ∧
        interpreter.config.Initialization s [⟨1⟩, ⟨4⟩] (.error .divisionByZero) t := by
  have runs : ∃ interpreter, Interpreter.start failsAtTheLast {} = .ok interpreter ∧ ∃ s t,
      interpreter.state.globalsReady = false ∧
      (interpreter.config.run 9).Returns interpreter.state (.error .divisionByZero) s ∧
      (interpreter.config.run 9).Returns s (.error .divisionByZero) t ∧
      interpreter.config.runScript.evaluations (interpreter.config.carryOut 9) s = [⟨1⟩, ⟨4⟩] :=
    ⟨_, rfl, _, _, rfl, rfl, rfl, rfl⟩
  obtain ⟨interpreter, started, s, t, unready, first, second, evaluated⟩ := runs
  have passes := initialization_passes (.run (.start started) first)
  rw [unready] at passes
  exact ⟨interpreter, started, s, t, first, passes.1, second,
    evaluated ▸ passes.2 9 (.error .divisionByZero) t second⟩

/-- Initialization is not done once: the second run evaluates an initializer that the first one
completed, and the file-scope frame lists two live blocks for the one array. -/
theorem initialization_repeated :
    ∃ interpreter, Interpreter.start failsAtTheLast {} = .ok interpreter ∧
      ∃ s t, (interpreter.config.run 9).Returns interpreter.state (.error .divisionByZero) s ∧
        s.stack.root.value? ⟨1⟩ = some (.int 0) ∧
        (interpreter.config.run 9).Returns s (.error .divisionByZero) t ∧
        ⟨1⟩ ∈ interpreter.config.runScript.evaluations (interpreter.config.carryOut 9) s ∧
        interpreter.config.fileScopeArrays = 1 ∧ t.stack.root.arrays.length = 2 ∧
        t.heap.blocks.map Block.base = t.stack.root.arrays.reverse :=
  ⟨_, rfl, _, _, rfl, rfl, rfl, by decide +kernel, rfl, rfl, rfl⟩

end CellC
