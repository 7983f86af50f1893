import CellC.Proofs.Agreement

/-!
# Loops

What a `for` statement with a condition does can be said with `while`: after the start comes a loop
whose body is a block of the body and the step. Both ways do the same for any number of passes and
however the loop is left. Only the statements that are announced on the way are others, as there are
others.

## Main definitions

* `Program.Desugars`: a block says with `while` what another statement says with `for`
* `Config.pass`: one pass of a loop

## Main results

* `Config.while_mimics_for`: passes of the one loop are passes of the other one
* `Config.for_mimics_block`: the statements mimic each other
* `for_is_while`: both statements do the same
-/

namespace CellC

open CellC.Action (Follows Approximates)

variable {α β : Type}

/-- Every event counts but the beginning of a statement. -/
def Event.beginsNoStatement : Event → Bool
  | exec _ => false
  | _ => true

/-- The second action does what the first one does, up to the statements that are announced. -/
abbrev Action.Mimics (action other : Action α) : Prop :=
  Follows (· = ·) Event.beginsNoStatement action other

/-- The statement `block` says with `while` what the statement `loop` says with `for`: first comes
the start and then a loop, whose body is a block of the body and the step. What is missing from the
one statement is missing from the other one. -/
inductive Program.Desugars (program : Program) (loop block : StmtId) : Prop
  | intro {start : Option StmtId} {cond : ExprId} {step : Option ExprId} {body rest inner : StmtId}
    {last : List StmtId} :
    program.stmt? loop = some (.for start (some cond) step body) →
    program.stmt? block = some (.compound (start.toList ++ [rest])) →
    program.stmt? rest = some (.while cond inner) →
    program.stmt? inner = some (.compound (body :: last)) →
    List.Forall₂ (fun stmt expr => program.stmt? stmt = some (.expr expr)) last step.toList →
    Desugars program loop block

namespace Config

/-! ### Passes -/

section Passes

variable (eval : ExprId → Action Value) (exec : StmtId → Action Completion)

/-- What comes next, unless what came before returned. -/
def unlessReturned (rest : Action Completion) : Completion → Action Completion
  | .returned value => pure (.returned value)
  | .completed => rest

/-- The execution of the start of a loop, if there is one. -/
def started : Option StmtId → Action Completion
  | some stmt => exec stmt
  | none => pure .completed

/-- The evaluation of the step of a loop, if there is one. -/
def stepped : Option ExprId → Action Completion
  | some expr => do
    discard <| eval expr
    pure .completed
  | none => pure .completed

/-- One pass of a loop whose condition holds: the body, and the step unless the body returned. -/
def pass (body : StmtId) (step : Option ExprId) : Action Completion :=
  exec body >>= unlessReturned (stepped eval step)

variable {eval exec} {loop : ExprId → StmtId → Option ExprId → Action Completion}

theorem bind_unlessReturned_completed (action : Action Completion) :
    action >>= unlessReturned (pure .completed) = action := by
  refine Eq.trans (bind_congr fun completion => ?_) (bind_pure _)
  cases completion <;> rfl

theorem iteration_eq_pass (cond : ExprId) (body : StmtId) (step : Option ExprId) :
    Config.iteration eval exec loop cond body step = (do
      if (← eval cond).isTrue then
        pass eval exec body step >>= unlessReturned (loop cond body step)
      else pure .completed) := by
  refine bind_congr fun value => ?_
  split
  · unfold pass
    rw [bind_assoc]
    refine bind_congr fun completion => ?_
    cases completion with
    | returned value => rfl
    | completed => cases step <;> simp [unlessReturned, stepped]
  · rfl

/-- A loop without a step does nothing after its body. -/
theorem pass_none (body : StmtId) : pass eval exec body none = exec body :=
  bind_unlessReturned_completed _

theorem compound_cons (stmt : StmtId) (stmts : List StmtId) :
    Config.compound exec (stmt :: stmts) =
      exec stmt >>= unlessReturned (Config.compound exec stmts) :=
  bind_congr fun completion => by cases completion <;> rfl

/-- A block of one statement is that statement. -/
theorem compound_single (stmt : StmtId) : Config.compound exec [stmt] = exec stmt :=
  (compound_cons stmt []).trans (bind_unlessReturned_completed _)

theorem compound_start (start : Option StmtId) (rest : StmtId) :
    Config.compound exec (start.toList ++ [rest]) =
      started exec start >>= unlessReturned (exec rest) := by
  cases start with
  | none => exact compound_single rest
  | some stmt =>
    refine (compound_cons stmt [rest]).trans ?_
    rw [compound_single]
    rfl

theorem forLoop_start (start : Option StmtId) (cond : ExprId) (step : Option ExprId)
    (body : StmtId) :
    Config.forLoop exec loop start (some cond) step body =
      started exec start >>= unlessReturned (loop cond body step) := by
  cases start with
  | none => rfl
  | some stmt => exact bind_congr fun completion => by cases completion <;> rfl

end Passes

section Sequences

variable {first first' rest rest' : Action Completion}

theorem mimics_unlessReturned (follows : rest.Mimics rest') (completion : Completion) :
    (unlessReturned rest completion).Mimics (unlessReturned rest' completion) := by
  cases completion with
  | returned value => exact .pure _
  | completed => exact follows

theorem mimics_sequence (start : first.Mimics first') (follows : rest.Mimics rest') :
    (first >>= unlessReturned rest).Mimics (first' >>= unlessReturned rest') :=
  start.bind fun completion => mimics_unlessReturned follows completion

end Sequences

theorem mimics_started {exec exec' : StmtId → Action Completion}
    (hexec : ∀ id, (exec id).Mimics (exec' id)) (start : Option StmtId) :
    (started exec start).Mimics (started exec' start) := by
  cases start with
  | none => exact .pure _
  | some stmt => exact hexec stmt

/-! ### Announcements -/

/-- That a statement is announced makes no difference. -/
theorem mimics_announce_right {action other : Action α} (follows : action.Mimics other)
    (stmt : StmtId) : action.Mimics (Action.emit (.exec stmt) >>= fun _ => other) :=
  fun _ _ start _ _ returned => follows (start.emit_right rfl) returned

theorem mimics_announce_left {action other : Action α} (follows : action.Mimics other)
    (stmt : StmtId) : (Action.emit (.exec stmt) >>= fun _ => action).Mimics other :=
  fun _ _ start _ _ returned => follows (start.emit_left rfl) returned

section Trees

variable {config : Config} {levels more : Nat}

theorem exec_of_stmt? {id : StmtId} {stmt : Stmt} (found : config.program.stmt? id = some stmt) :
    CellC.exec config (levels + 1) id = Action.emit (.exec id) >>= fun _ =>
      config.statement (CellC.eval config levels) (CellC.exec config levels)
        (CellC.loop config levels) stmt := by
  rw [exec_succ, execution, found]
  rfl

/-- An evaluation is mimicked by itself with more levels. -/
theorem mimics_eval (le : levels ≤ more) (id : ExprId) :
    (CellC.eval config levels id).Mimics (CellC.eval config more id) :=
  ((follows_trees Frame.congruence_eq config levels).1 id).approximates (eval_mono le id)

theorem mimics_exec (le : levels ≤ more) (id : StmtId) :
    (CellC.exec config levels id).Mimics (CellC.exec config more id) :=
  ((follows_trees Frame.congruence_eq config levels).2.1 id).approximates (exec_mono le id)

/-! ### The two loops -/

section Loops

variable {cond : ExprId} {step : Option ExprId} {body inner : StmtId} {last : List StmtId}
  (block : config.program.stmt? inner = some (.compound (body :: last)))
  (steps : List.Forall₂ (fun stmt expr => config.program.stmt? stmt = some (.expr expr)) last
    step.toList)
include block steps

omit block in
variable (levels) in
/-- The step and the statement of the step mimic each other. -/
theorem steps_mimic :
    (stepped (CellC.eval config levels) step).Mimics
        (Config.compound (CellC.exec config (levels + 1)) last) ∧
      (Config.compound (CellC.exec config (levels + 1)) last).Mimics
        (stepped (CellC.eval config (levels + 2)) step) := by
  cases step with
  | none =>
    cases steps
    exact ⟨.pure _, .pure _⟩
  | some expr =>
    obtain ⟨stmt, _, found, ⟨⟩, rfl⟩ := List.forall₂_cons_right_iff.mp steps
    rw [compound_single, exec_of_stmt? found]
    constructor
    · refine mimics_announce_right ?_ stmt
      exact (mimics_eval (Nat.le_refl levels) expr).discard.bind fun _ => .pure _
    · refine mimics_announce_left ?_ stmt
      exact (mimics_eval (Nat.le_add_right levels 2) expr).discard.bind fun _ => .pure _

variable (levels) in
/-- A pass of the loop with a step and an execution of the block of its body and its step mimic each
other. -/
theorem block_mimics_pass :
    (pass (CellC.eval config levels) (CellC.exec config levels) body step).Mimics
        (CellC.exec config (levels + 2) inner) ∧
      (CellC.exec config (levels + 2) inner).Mimics
        (pass (CellC.eval config (levels + 2)) (CellC.exec config (levels + 2)) body step) := by
  obtain ⟨forth, back⟩ := steps_mimic levels steps
  rw [exec_of_stmt? block, statement, compound_cons]
  constructor
  · refine mimics_announce_right ?_ inner
    exact mimics_sequence (mimics_exec (Nat.le_succ levels) body) forth
  · refine mimics_announce_left ?_ inner
    exact mimics_sequence (mimics_exec (Nat.le_succ _) body) back

variable (levels cond) in
/-- However many passes there are, the loop without a step does what the loop with it does, and the
other way round. -/
theorem while_mimics_for :
    (CellC.loop config levels cond body step).Mimics
        (CellC.loop config (levels + 2) cond inner none) ∧
      (CellC.loop config levels cond inner none).Mimics
        (CellC.loop config (levels + 2) cond body step) := by
  induction levels with
  | zero => exact ⟨.throw_exhausted _, .throw_exhausted _⟩
  | succ levels ih =>
    -- The block takes a level and so does the statement of the step, hence two more for each pass.
    have passes := block_mimics_pass levels block steps
    have blocks : (CellC.exec config levels inner).Mimics
        (pass (CellC.eval config (levels + 2)) (CellC.exec config (levels + 2)) body step) :=
      .of_approximates (exec_mono (Nat.le_add_right levels 2) inner) passes.2
    rw [loop_succ, loop_succ, loop_succ, loop_succ]
    simp only [iteration_eq_pass, pass_none]
    constructor
    · refine (mimics_eval (Nat.le_add_right levels 2) cond).bind fun value => ?_
      split
      · exact mimics_sequence passes.1 ih.1
      · exact .pure _
    · refine (mimics_eval (Nat.le_add_right levels 2) cond).bind fun value => ?_
      split
      · exact mimics_sequence blocks ih.2
      · exact .pure _

end Loops

/-! ### The two statements -/

/-- The two statements mimic each other. -/
theorem for_mimics_block {loop block : StmtId} (desugars : config.program.Desugars loop block) :
    (CellC.exec config levels loop).Mimics (CellC.exec config (levels + 3) block) ∧
      (CellC.exec config levels block).Mimics (CellC.exec config (levels + 3) loop) := by
  obtain @⟨_, cond, _, _, rest, _, _, isLoop, isBlock, isWhile, isInner, steps⟩ := desugars
  cases levels with
  | zero => exact ⟨.throw_exhausted _, .throw_exhausted _⟩
  | succ levels =>
    have loops := while_mimics_for levels cond isInner steps
    rw [exec_of_stmt? isLoop, exec_of_stmt? isLoop, exec_of_stmt? isBlock, exec_of_stmt? isBlock]
    refine ⟨mimics_announce_left (mimics_announce_right ?_ block) loop,
      mimics_announce_left (mimics_announce_right ?_ loop) block⟩
    · rw [statement, statement, forLoop_start, compound_start]
      refine mimics_sequence (mimics_started (mimics_exec (Nat.le_add_right levels 3)) _) ?_
      rw [exec_of_stmt? isWhile]
      exact mimics_announce_right loops.1 rest
    · rw [statement, statement, forLoop_start, compound_start]
      refine mimics_sequence (mimics_started (mimics_exec (Nat.le_add_right levels 3)) _) ?_
      refine .of_approximates (exec_mono (Nat.le_succ levels) rest) ?_
      rw [exec_of_stmt? isWhile]
      exact mimics_announce_left (loops.2.approximates (loop_mono (Nat.le_succ _) _ _ _)) rest

end Trees

end Config

/-- States that agree in every frame and up to the statements that are announced are equal but for
the journal. -/
theorem State.Agrees.eq_with_journal {counts : Event → Bool} {s t : State}
    (h : s.Agrees (· = ·) counts t) : t = { s with journal := t.journal } := by
  obtain ⟨⟨root, calls⟩, heap, input, printer, ready, journal⟩ := s
  obtain ⟨⟨root', calls'⟩, heap', input', printer', ready', journal'⟩ := t
  obtain ⟨⟨roots, all⟩, rfl, rfl, rfl, rfl, -⟩ := h
  obtain rfl : root = root' := roots
  rw [List.forall₂_eq_eq_eq] at all
  obtain rfl : calls = calls' := all
  rfl

/-- Whether it is said with `for` or with `while`, a loop does the same, whatever its parts do: from
any state both statements end or neither of them does, with the same completion or fault, and in
states that are equal up to the statements that were announced on the way. -/
theorem for_is_while {config : Config} {loop block : StmtId}
    (desugars : config.program.Desugars loop block) (s : State) (result : Except Fault Completion) :
    (∀ s', config.Ends (.execute loop) s result s' →
      ∃ journal, config.Ends (.execute block) s result { s' with journal } ∧
        journal.toList.filter Event.beginsNoStatement =
          s'.journal.toList.filter Event.beginsNoStatement) ∧
    (∀ s', config.Ends (.execute block) s result s' →
      ∃ journal, config.Ends (.execute loop) s result { s' with journal } ∧
        journal.toList.filter Event.beginsNoStatement =
          s'.journal.toList.filter Event.beginsNoStatement) := by
  have start : s.Agrees (· = ·) Event.beginsNoStatement s := .refl Frame.congruence_eq s
  constructor
  · rintro s' ⟨levels, ended⟩
    obtain ⟨t', ended', agree⟩ := (Config.for_mimics_block desugars).1 start ended
    rw [agree.eq_with_journal] at ended'
    exact ⟨t'.journal, ⟨levels + 3, ended'⟩, agree.journal⟩
  · rintro s' ⟨levels, ended⟩
    obtain ⟨t', ended', agree⟩ := (Config.for_mimics_block desugars).2 start ended
    rw [agree.eq_with_journal] at ended'
    exact ⟨t'.journal, ⟨levels + 3, ended'⟩, agree.journal⟩

/-- A loop that prints the numbers below two, said with `for` and with `while`. -/
def countUp : Config where
  program := {
    names := ⟨⟨#["", "PRINT", "i"]⟩⟩
    vars := #[⟨⟨2⟩, .int, none⟩]
    exprs := #[⟨.ident ⟨0⟩, .int⟩, ⟨.intLit 0, .int⟩, ⟨.binary .assign ⟨0⟩ ⟨1⟩, .int⟩,
      ⟨.intLit 2, .int⟩, ⟨.binary .lt ⟨0⟩ ⟨3⟩, .int⟩, ⟨.intLit 1, .int⟩,
      ⟨.binary .add ⟨0⟩ ⟨5⟩, .int⟩, ⟨.binary .assign ⟨0⟩ ⟨6⟩, .int⟩, ⟨.call ⟨0⟩ [⟨0⟩], .int⟩]
    stmts := #[.expr ⟨2⟩, .expr ⟨8⟩, .for (some ⟨0⟩) (some ⟨4⟩) (some ⟨7⟩) ⟨1⟩, .expr ⟨7⟩,
      .compound [⟨1⟩, ⟨3⟩], .while ⟨4⟩ ⟨4⟩, .compound [⟨0⟩, ⟨5⟩]]
    funcs := #[⟨⟨1⟩, [], .int, none⟩]
    topLevel := #[.function ⟨0⟩] }
  setup := {
    primitives := ({} : Std.TreeMap Nat Primitive).insert 0 .print
    entry := ⟨0⟩ }

/-- Both loops print the same two numbers. -/
theorem for_is_while_countUp :
    ∃ s' journal, countUp.Ends (.execute ⟨2⟩) {} (.ok .completed) s' ∧
      countUp.Ends (.execute ⟨6⟩) {} (.ok .completed) { s' with journal } ∧
      s'.printer.lines = #["0", "1"] := by
  have returns : ∃ s', countUp.Ends (.execute ⟨2⟩) {} (.ok .completed) s' ∧
      s'.printer.lines = #["0", "1"] := ⟨_, ⟨12, rfl⟩, rfl⟩
  obtain ⟨s', ended, lines⟩ := returns
  have desugars : countUp.program.Desugars ⟨2⟩ ⟨6⟩ := .intro rfl rfl rfl rfl (.cons rfl .nil)
  obtain ⟨journal, ended', -⟩ := (for_is_while desugars {} (.ok .completed)).1 s' ended
  exact ⟨s', journal, ended, ended', lines⟩

end CellC
