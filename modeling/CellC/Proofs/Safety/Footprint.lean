import CellC.Proofs.Safety.Lookups

/-!
# What requests depend on

A request depends on the nodes and declarations of a program only through those that it consults by
itself or through its parts. In any other program that has the same under these numbers it comes to
the same end. So `Config.consulted` leaves out no look-up of the rules: neither those that are
requests of their own nor those that rules make on the way, for the types of operands, for what is
under parentheses, for the names of variables and for the declaration whose body runs in a call.

## Main definitions

* `Program.SameAt`: two programs have the same under a number
* `Config.withNodes`: the same configuration with the nodes and declarations of another program
* `Script.Alike`: scripts that ask for the same, as long as look-ups yield what is there

## Main results

* `Program.ParensDescend.unparen_eq`: what is under parentheses depends on nothing else
* `Config.carryOut_withNodes`: a request depends on nothing but what is consulted in its course
-/

namespace CellC

variable {α β : Type}

/-! ### Programs that agree somewhere -/

/-- The two programs have the same under the number. Types and names have tables of their own, which
have an answer to every number. -/
def Program.SameAt (program other : Program) : Reference → Prop
  | .expr id => other.expr? id = program.expr? id
  | .stmt id => other.stmt? id = program.stmt? id
  | .var id => other.var? id = program.var? id
  | .func id => other.func? id = program.func? id
  | .type _ | .name _ => True

namespace Program

variable {program other : Program}

/-- Programs that agree under some parentheses find the same there, if both look far enough. -/
theorem ParensDescend.unparenWithin_eq (descend : program.ParensDescend) {layers layers' : Nat}
    {id : ExprId}
    (same : ∀ inner ∈ program.underParensWithin layers id, program.SameAt other (.expr inner))
    (enough : id.index < layers ∨ program.expr? id = none)
    (enough' : id.index < layers' ∨ other.expr? id = none) :
    other.unparenWithin layers' id = program.unparenWithin layers id := by
  induction layers generalizing layers' id with
  | zero =>
    have here : other.expr? id = program.expr? id := same id List.mem_cons_self
    have missing : program.expr? id = none := enough.resolve_left (Nat.not_lt_zero _)
    cases layers' with
    | zero => rfl
    | succ layers' =>
      unfold unparenWithin
      rw [here, missing]
      rfl
  | succ layers ih =>
    have here : other.expr? id = program.expr? id := same id List.mem_cons_self
    unfold underParensWithin at same
    cases found : program.expr? id with
    | none =>
      cases layers' <;> simp [unparenWithin, here, found]
    | some expr =>
      obtain ⟨form, type⟩ := expr
      obtain ⟨layers', rfl⟩ : ∃ below, layers' = below + 1 := by
        refine Nat.exists_eq_succ_of_ne_zero (Nat.ne_zero_of_lt (enough'.resolve_right ?_))
        rw [here, found]
        exact Option.some_ne_none _
      cases form with
      | paren inner =>
        have below := descend id inner type found
        have outer : id.index < layers + 1 :=
          enough.resolve_right (by rw [found]; exact Option.some_ne_none _)
        have outer' : id.index < layers' + 1 :=
          enough'.resolve_right (by rw [here, found]; exact Option.some_ne_none _)
        simp only [unparenWithin, here, found, Option.map_some]
        simp only [found, Option.map_some] at same
        exact ih (fun other member => same other (List.mem_cons_of_mem _ member))
          (.inl (by omega)) (.inl (by omega))
      | _ => simp [unparenWithin, here, found]

/-- What is under parentheses depends on nothing else. -/
theorem ParensDescend.unparen_eq (descend : program.ParensDescend) {id : ExprId}
    (same : ∀ inner ∈ program.underParens id, program.SameAt other (.expr inner)) :
    other.unparen id = program.unparen id := by
  have enough (program : Program) :
      id.index < program.exprs.size ∨ program.expr? id = none := by
    rcases Nat.lt_or_ge id.index program.exprs.size with lt | ge
    · exact .inl lt
    · exact .inr (Array.getElem?_eq_none ge)
  exact descend.unparenWithin_eq same (enough program) (enough other)

theorem exprType_eq_of_sameAt {id : ExprId} (same : program.SameAt other (.expr id)) :
    other.exprType id = program.exprType id := by
  have same : other.expr? id = program.expr? id := same
  unfold exprType
  rw [same]

theorem implementation_eq_of_sameAt (setup : Setup) {callee : FuncId}
    (same : program.SameAt other (.func callee)) :
    setup.implementation other callee = setup.implementation program callee := by
  have same : other.func? callee = program.func? callee := same
  unfold Setup.implementation Survey.definition?
  rw [same]

end Program

/-- The same configuration with the nodes and declarations of another program. Names and types stay,
and so does what was found out about the program before it ran. -/
def Config.withNodes (config : Config) (other : Program) : Config :=
  { config with
    program := { other with names := config.program.names, types := config.program.types } }

/-! ### Scripts that ask for the same -/

/-- The scripts ask for the same and end alike, as long as look-ups yield what is there. -/
inductive Script.Alike (program : Program) : Script α → Script α → Prop
  | done (a : α) : Alike program (done a) (done a)
  | ask {request : Request} {next next' : request.Answer → Script α} :
    (∀ answer, request.Answered program answer → Alike program (next answer) (next' answer)) →
    Alike program (ask request next) (ask request next')

namespace Script.Alike

variable {program : Program}

theorem refl (script : Script α) : script.Alike program script := by
  induction script with
  | done a => exact .done a
  | ask request next ih => exact .ask fun answer _ => ih answer

theorem of_eq {script script' : Script α} (same : script' = script) :
    script.Alike program script' := by
  rw [same]
  exact refl script

theorem bind {script script' : Script α} {next next' : α → Script β}
    (first : script.Alike program script') (rest : ∀ a, (next a).Alike program (next' a)) :
    (script >>= next).Alike program (script' >>= next') := by
  induction first with
  | done a => exact rest a
  | ask _ ih => exact .ask fun answer answered => ih answer answered

/-- What follows a look-up is told what is there. -/
theorem lookup {operation : Operation} {next next' : operation.Answer → Script β}
    (rest : ∀ answer, Request.Answered program (.operate operation) answer →
      (next answer).Alike program (next' answer)) :
    (Script.operate operation >>= next).Alike program (Script.operate operation >>= next') :=
  .ask rest

/-- Scripts that are alike end alike if the requests do that the first one comes to. -/
theorem run_eq {config : Config} {levels : Nat} {s : State}
    {carryOut : (request : Request) → Action request.Answer} {script script' : Script α}
    (alike : script.Alike config.program script')
    (same : ∀ request t, script.Reaches (config.carryOut levels) s request t →
      (carryOut request).run t = (config.carryOut levels request).run t) :
    (script'.run carryOut).run s = (script.run (config.carryOut levels)).run s := by
  induction alike generalizing s with
  | done a => rfl
  | @ask request next next' _ ih =>
    unfold Script.run
    rw [EStateM.run_bind, EStateM.run_bind, same request s .here]
    cases ran : (config.carryOut levels request).run s with
    | ok answer t =>
      exact ih answer (Config.answered ran) fun asked u reaches => same asked u (.later ran reaches)
    | error halt t => rfl

end Script.Alike

/-! ### Rules -/

namespace Config

variable {config : Config} {other : Program}

/-- An operation depends on what it refers to. -/
theorem perform_withNodes {operation : Operation}
    (same : ∀ reference ∈ operation.references, config.program.SameAt other reference) :
    (config.withNodes other).perform operation = config.perform operation := by
  cases operation with
  | expr | stmt | var | func => exact congrArg Action.ofOption (same _ List.mem_cons_self)
  | varValue id =>
    have found : other.var? id = config.program.var? id := same (.var id) List.mem_cons_self
    have named : (config.withNodes other).program.varName id = config.program.varName id :=
      congrArg (fun decl => (decl.map (config.program.names.spelling ·.name)).getD
        NameTable.unknown) found
    show (config.withNodes other).varValue id = config.varValue id
    unfold varValue
    rw [named]
    rfl
  | _ => rfl

/-- The address of an element depends on the type of the array. -/
theorem subscriptScript_withNodes {base : ExprId}
    (same : config.program.SameAt other (.expr base)) (index : ExprId) :
    (config.withNodes other).subscriptScript base index = config.subscriptScript base index := by
  have typed : (config.withNodes other).program.exprType base = config.program.exprType base :=
    Program.exprType_eq_of_sameAt same
  unfold subscriptScript
  rw [typed]
  rfl

section Evaluations

variable (descend : config.program.ParensDescend) {target left right : ExprId}
include descend

/-- An assignment depends on what is under the parentheses of its target. -/
theorem alike_assignScript
    (same : ∀ reference ∈ (config.program.underParens target).flatMap config.nodeReferences,
      config.program.SameAt other reference) (value : ExprId) :
    (config.assignScript target value).Alike config.program
      ((config.withNodes other).assignScript target value) := by
  have under : ∀ inner ∈ config.program.underParens target,
      ∀ reference ∈ config.nodeReferences inner, config.program.SameAt other reference :=
    fun inner member reference among => same reference (List.mem_flatMap.mpr ⟨inner, member, among⟩)
  have found : (config.withNodes other).program.unparen target = config.program.unparen target :=
    descend.unparen_eq fun inner member => under inner member _ List.mem_cons_self
  unfold assignScript
  rw [found]
  refine (Script.Alike.refl _).bind fun v => .lookup fun (node : Expr) answered => ?_
  obtain ⟨form, type⟩ := node
  cases form with
  | index base index =>
    have holds : config.program.SameAt other (.expr base) :=
      under _ (config.program.unparen_mem target) _ (mem_nodeReferences answered List.mem_cons_self)
    exact (Script.Alike.of_eq (subscriptScript_withNodes holds index)).bind fun _ => .refl _
  | unary op operand => cases op <;> exact .of_eq rfl
  | ident => exact .of_eq rfl
  | intLit | charLit | strLit | paren | sizeOf | binary | call | cast => exact .of_eq rfl

/-- An operator on numbers depends on the types of its operands. -/
theorem alike_binaryScript {op : BinaryOp}
    (same : ∀ reference ∈ [Reference.expr left, .expr right], config.program.SameAt other reference)
    (assigned : op = .assign →
      ∀ reference ∈ (config.program.underParens left).flatMap config.nodeReferences,
        config.program.SameAt other reference) (type : TypeId) :
    (config.binaryScript op left right type).Alike config.program
      ((config.withNodes other).binaryScript op left right type) := by
  have typed : (config.withNodes other).program.exprType left = config.program.exprType left :=
    Program.exprType_eq_of_sameAt (same _ List.mem_cons_self)
  have typed' : (config.withNodes other).program.exprType right = config.program.exprType right :=
    Program.exprType_eq_of_sameAt (same _ (List.mem_cons_of_mem _ List.mem_cons_self))
  unfold binaryScript
  split
  · exact .refl _
  split
  · next assigns =>
    have assign : op = .assign := by cases op <;> first | rfl | cases assigns
    exact alike_assignScript descend (assigned assign) right
  · rw [typed, typed']
    exact .refl _

/-- The value of an expression depends on what is consulted for it. -/
theorem alike_evaluationScript {id : ExprId}
    (same : ∀ reference ∈ config.consulted (.evaluate id), config.program.SameAt other reference) :
    (config.evaluationScript id).Alike config.program
      ((config.withNodes other).evaluationScript id) := by
  refine .lookup fun (expr : Expr) answered => ?_
  have found : config.program.expr? id = some expr := answered
  have holds (reference : Reference) (member : reference ∈ expr.form.references) :
      config.program.SameAt other reference :=
    same reference (List.mem_append_left _ (mem_nodeReferences found member))
  refine .bind ?_ fun _ => .refl _
  obtain ⟨form, type⟩ := expr
  cases form with
  | index base index =>
    exact (Script.Alike.of_eq (subscriptScript_withNodes (holds _ List.mem_cons_self) index)).bind
      fun _ => .refl _
  | binary op left right =>
    refine alike_binaryScript descend holds (fun assign reference member => ?_) type
    subst assign
    refine same reference (List.mem_append_right _ ?_)
    rw [found]
    exact member
  | _ => exact .refl _

end Evaluations

/-- Whether a call is admitted depends on the declaration that is called. -/
theorem alike_admissionScript {callee : FuncId} (same : config.program.SameAt other (.func callee))
    (values : List Value) :
    (config.admissionScript callee values).Alike config.program
      ((config.withNodes other).admissionScript callee values) := by
  have runs :
      (config.withNodes other).setup.implementation (config.withNodes other).program callee =
      config.setup.implementation config.program callee :=
    Program.implementation_eq_of_sameAt config.setup same
  unfold admissionScript
  rw [runs]
  exact .refl _

/-! ### Requests -/

/-- **A request depends on nothing but what is consulted in its course.** In a program that has the
same under all numbers that the request and its parts consult, it comes to the same end. -/
theorem carryOut_withNodes (descend : config.program.ParensDescend) {levels : Nat}
    {request : Request} {s : State}
    (same : ∀ job, config.Contains ⟨levels, request, s⟩ job →
      ∀ reference ∈ config.consulted job.request, config.program.SameAt other reference) :
    ((config.withNodes other).carryOut levels request).run s =
      (config.carryOut levels request).run s := by
  induction levels, request using Request.induction generalizing s with
  | operate levels operation =>
    exact congrArg (·.run s) (perform_withNodes (same _ .refl))
  | exhausted request tree =>
    cases request with
    | evaluate | execute | iterate => rfl
    | operate | invoke | run => cases tree
  | evaluate levels id ih =>
    show (CellC.eval (config.withNodes other) (levels + 1) id).run s =
      (CellC.eval config (levels + 1) id).run s
    rw [eval_eq_run, eval_eq_run]
    exact (alike_evaluationScript descend (same _ .refl)).run_eq fun asked t reaches =>
      ih asked fun job contains => same job (.head (.evaluate reaches) contains)
  | execute levels id ih =>
    show (CellC.exec (config.withNodes other) (levels + 1) id).run s =
      (CellC.exec config (levels + 1) id).run s
    rw [exec_eq_run, exec_eq_run]
    exact (Script.Alike.refl (config.executionScript id)).run_eq fun asked t reaches =>
      ih asked fun job contains => same job (.head (.execute reaches) contains)
  | iterate levels cond body step ih =>
    show (CellC.loop (config.withNodes other) (levels + 1) cond body step).run s =
      (CellC.loop config (levels + 1) cond body step).run s
    rw [loop_eq_run, loop_eq_run]
    exact (Script.Alike.refl (iterationScript cond body step)).run_eq fun asked t reaches =>
      ih asked fun job contains => same job (.head (.iterate reaches) contains)
  | run levels ih =>
    show ((config.withNodes other).run levels).run s = (config.run levels).run s
    rw [run_eq_run, run_eq_run]
    exact (Script.Alike.refl config.runScript).run_eq fun asked t reaches =>
      ih asked (config.asks_runScript.of_reaches reaches) fun job contains =>
        same job (.head (.run reaches) contains)
  | invoke levels callee values type ih =>
    show ((config.withNodes other).functionCall (CellC.exec (config.withNodes other) levels) callee
      values type).run s =
        (config.functionCall (CellC.exec config levels) callee values type).run s
    have admitted := alike_admissionScript (same _ .refl _ List.mem_cons_self) values
    have rank := config.asks_admissionScript callee values
    have admission := admitted.run_eq fun asked t reaches =>
      ih asked (rank.of_reaches reaches ▸ Nat.zero_le 1) fun job contains =>
        same job (.head (.admission reaches) contains)
    rw [functionCall_eq_run, functionCall_eq_run, EStateM.run_bind, EStateM.run_bind, admission]
    cases outcome : ((config.admissionScript callee values).run (config.carryOut levels)).run s with
    | error halt u => rfl
    | ok start u =>
      obtain ⟨params, body⟩ := start
      have bodies : ((config.withNodes other).boundBody
          (CellC.exec (config.withNodes other) levels) params values body).run u.entered =
            (config.boundBody (CellC.exec config levels) params values body).run u.entered := by
        rw [boundBody_eq_run, boundBody_eq_run]
        exact (Script.Alike.refl (config.bodyScript params values body)).run_eq
          fun asked t reaches =>
            ih asked ((config.asks_bodyScript params values body).of_reaches reaches)
              fun job contains => same job (.head (.body outcome reaches) contains)
      have activations : ((config.withNodes other).activation
          (CellC.exec (config.withNodes other) levels) params values body).run u =
            (config.activation (CellC.exec config levels) params values body).run u := by
        rw [run_activation, run_activation, bodies]
      dsimp only
      rw [EStateM.run_bind, EStateM.run_bind, activations]
      rfl

end Config

end CellC
