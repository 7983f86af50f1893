import CellC.Proofs.CallOrder
import CellC.Proofs.Channels
import CellC.Proofs.Nesting

/-!
# The order of evaluation

Which calls an evaluation makes, and in which order, depends on the expression alone: they are the
calls written in it, each of them once for each time it is written, in the order of calls. Between
them nothing is printed or read. If the evaluation fails, some of the last ones are missing.

## Main definitions

* `CallRecord`, `Config.Made`: a call that was made, with the states before and after it
* `Config.Chain`: what happens between two states, as a sequence of calls
* `Action.Makes`: an action makes certain calls in order

## Main results

* `Config.makes_eval`: an evaluation makes the calls that are written in the expression
* `evaluation_order`: the same for the journal, the output and the input
-/

namespace CellC

variable {α β : Type}

/-! ### Calls that were made -/

/-- A call that was made, with the values of its arguments, the state in which they were all there
and how it ended. -/
structure CallRecord where
  expr : ExprId
  values : List Value
  before : State
  result : Except Fault Value
  after : State

/-- What the call printed. -/
def CallRecord.printed (call : CallRecord) : List String := call.before.printedSince call.after

/-- What the call read. -/
def CallRecord.consumed (call : CallRecord) : List Reading :=
  call.before.consumedSince call.after

/-- Nothing was printed or read, and no call was announced. -/
structure State.Still (s t : State) : Prop where
  depth : t.stack.depth = s.stack.depth
  printer : t.printer = s.printer
  input : t.input = s.input
  journal : ∃ events : List Event, (∀ event ∈ events, event.IsRemark = true) ∧
    t.journal = s.journal ++ events.toArray

namespace State.Still

variable {s t u : State}

/-- Frames and memory may change. -/
theorem of_depth (depth : t.stack.depth = s.stack.depth) (printer : t.printer = s.printer)
    (input : t.input = s.input) (journal : t.journal = s.journal) : s.Still t :=
  ⟨depth, printer, input, [], by simp, by simpa using journal⟩

theorem refl (s : State) : s.Still s := of_depth rfl rfl rfl rfl

theorem trans (h₁ : s.Still t) (h₂ : t.Still u) : s.Still u where
  depth := h₂.depth.trans h₁.depth
  printer := h₂.printer.trans h₁.printer
  input := h₂.input.trans h₁.input
  journal := by
    obtain ⟨first, plain, added⟩ := h₁.journal
    obtain ⟨second, plain', added'⟩ := h₂.journal
    refine ⟨first ++ second, fun event mem => ?_, by rw [added', added]; simp⟩
    exact (List.mem_append.mp mem).elim (plain event) (plain' event)

theorem advances (h : s.Still t) : s.Advances t := .of_eq h.printer h.input

/-- Between states where nothing happens, nothing is printed. -/
theorem printedSince_eq (h : s.Still t) : s.printedSince t = [] :=
  State.printedSince_eq (by rw [h.printer, Printer.extended_nil])

/-- Between states where nothing happens, nothing is read. -/
theorem consumedSince_eq (h : s.Still t) : s.consumedSince t = [] := by
  rw [State.consumedSince, h.input]
  simp

theorem nests (h : s.Still t) : s.Nests 0 t := by
  obtain ⟨events, plain, added⟩ := h.journal
  refine ⟨events, added, ?_⟩
  clear added
  induction events with
  | nil => exact .nil
  | cons event events ih =>
    exact (Nested.remark (plain event List.mem_cons_self)).append
      (ih fun other mem => plain other (List.mem_cons_of_mem _ mem))

end State.Still

namespace Config

/-- The call was made: its arguments had been evaluated one after the other, and then it was
announced and carried out. -/
def Made (config : Config) (call : CallRecord) : Prop :=
  ∃ levels callee args type start,
    config.program.expr? call.expr = some ⟨.call callee args, type⟩ ∧
    (Config.args (CellC.eval config levels) args).Returns start (.ok call.values) call.before ∧
    ((config.dispatchScript call.expr callee call.values type).run
      (config.carryOut levels)).Returns call.before call.result call.after

/-- From the one state to the other the given calls are made, one after the other, and in between
nothing is printed, read or announced. -/
inductive Chain (config : Config) : State → List CallRecord → State → Prop
  | still {s t : State} : s.Still t → Chain config s [] t
  | call {s t : State} {call : CallRecord} {made : List CallRecord} : s.Still call.before →
    config.Made call → Chain config call.after made t → Chain config s (call :: made) t

variable {config : Config} {s t u : State} {call : CallRecord} {made more : List CallRecord}

namespace Made

/-- A call that was made only adds to the output and takes from the input. -/
theorem advances (h : config.Made call) : call.before.Advances call.after := by
  obtain ⟨levels, callee, args, type, start, -, -, returned⟩ := h
  exact Script.keeps (R := State.Advances) (fun _ => .of_eq rfl rfl) .trans
    (fun request => advances_carryOut) returned

/-- A call that was made is back in the activation it was made in. -/
theorem depth (h : config.Made call) : call.after.stack.depth = call.before.stack.depth := by
  obtain ⟨levels, callee, args, type, start, -, -, returned⟩ := h
  exact (undisturbed_script returned).depth

/-- A call is announced once, and what happens then belongs to activations of its own. -/
theorem announces (h : config.Made call) : call.before.Announces [call.expr] call.after := by
  obtain ⟨levels, callee, args, type, start, -, -, returned⟩ := h
  rw [carryOut_eq_answer, run_dispatchScript] at returned
  obtain ⟨_, t, announced, rest⟩ | ⟨fault, -, failed⟩ := Action.returns_bind_iff.mp returned
  swap
  · cases failed
  cases announced
  refine (State.Announces.dispatch call.before call.expr call.values).trans (.of_nests ?_)
  cases declared : config.setup.primitive? callee with
  | some primitive =>
    rw [declared] at rest
    exact nests_primitiveCall rest
  | none =>
    rw [declared] at rest
    exact nests_functionCall rest

end Made

namespace Chain

/-- Silence before the first call changes nothing. -/
theorem of_still (h₁ : s.Still t) (h₂ : config.Chain t made u) : config.Chain s made u := by
  cases h₂ with
  | still still => exact .still (h₁.trans still)
  | call still call rest => exact .call (h₁.trans still) call rest

/-- Chains are put together, the calls of the first before those of the second. -/
theorem append (h₁ : config.Chain s made t) (h₂ : config.Chain t more u) :
    config.Chain s (made ++ more) u := by
  induction h₁ with
  | still still => exact h₂.of_still still
  | call still call _ ih => exact .call still call (ih h₂)

/-- All calls are made in the activation at hand. -/
theorem depth (h : config.Chain s made t) :
    ∀ call ∈ made, call.before.stack.depth = s.stack.depth := by
  induction h with
  | still => simp
  | call still call _ ih =>
    intro other mem
    obtain rfl | mem := List.mem_cons.mp mem
    · exact still.depth
    · rw [ih other mem, call.depth, still.depth]

/-- What is printed and read is what the calls print and read, one after the other. -/
theorem advances (h : config.Chain s made t) :
    s.Advances t ∧ s.printedSince t = made.flatMap CallRecord.printed ∧
      s.consumedSince t = made.flatMap CallRecord.consumed := by
  induction h with
  | still still => exact ⟨still.advances, still.printedSince_eq, still.consumedSince_eq⟩
  | call still call _ ih =>
    obtain ⟨later, printed, consumed⟩ := ih
    have onward := call.advances.trans later
    refine ⟨still.advances.trans onward, ?_, ?_⟩
    · rw [still.advances.printedSince_trans onward, still.printedSince_eq,
        call.advances.printedSince_trans later, printed]
      rfl
    · rw [still.advances.consumedSince_trans onward, still.consumedSince_eq,
        call.advances.consumedSince_trans later, consumed]
      rfl

/-- The calls are announced in order, and no others in the activation at hand. -/
theorem announces (h : config.Chain s made t) :
    s.Announces (made.map CallRecord.expr) t := by
  induction h with
  | still still => exact .of_nests still.nests
  | call still call _ ih =>
    exact (State.Announces.of_nests still.nests).trans (call.announces.trans ih)

end Chain

end Config

/-! ### Actions that make calls -/

/-- If the action yields a value, then it made exactly the given calls, in order, and each of them
yielded a value. If it fails, then it made the first ones of them. -/
def Action.Makes (config : Config) (action : Action α) (calls : List ExprId) : Prop :=
  ∀ s result s', action.Returns s result s' → ∃ made, config.Chain s made s' ∧
    match result with
    | .ok _ => made.map CallRecord.expr = calls ∧ ∀ call ∈ made, ∃ value, call.result = .ok value
    | .error _ => made.map CallRecord.expr <+: calls

namespace Action.Makes

variable {config : Config} {action : Action α} {next : α → Action β} {calls more : List ExprId}

/-- An action that prints, reads and announces nothing makes no call. -/
theorem of_still (still : ∀ s result s', action.Returns s result s' → s.Still s') :
    action.Makes config [] := by
  intro s result s' returned
  refine ⟨[], .still (still s result s' returned), ?_⟩
  cases result with
  | ok a => exact ⟨rfl, by simp⟩
  | error fault => exact List.nil_prefix

/-- What fails at once made the first calls, whatever they are. -/
theorem fail (fault : Fault) : (fail fault : Action α).Makes config calls := by
  intro s result s' returned
  cases result with
  | ok a => cases returned
  | error fault =>
    cases returned
    exact ⟨[], .still (.refl s), List.nil_prefix⟩

theorem pure (a : α) : (pure a : Action α).Makes config [] :=
  of_still fun s result s' returned => by
    cases result <;> cases returned
    exact .refl s

theorem throw (halt : Halt) (other : ∀ fault, halt ≠ .fault fault) :
    (throw halt : Action α).Makes config calls := by
  intro s result s' returned
  cases result with
  | ok a => cases returned
  | error fault =>
    cases returned
    exact absurd rfl (other fault)

/-- Actions in sequence make their calls in sequence. -/
protected theorem bind (first : action.Makes config calls)
    (rest : ∀ a, (next a).Makes config more) : (action >>= next).Makes config (calls ++ more) := by
  intro s result s' returned
  obtain ⟨a, t, returned, following⟩ | ⟨fault, rfl, failed⟩ := returns_bind_iff.mp returned
  · obtain ⟨made, chain, rfl, succeeded⟩ := first s (.ok a) t returned
    obtain ⟨made', chain', rest⟩ := rest a t result s' following
    refine ⟨made ++ made', chain.append chain', ?_⟩
    rw [List.map_append]
    cases result with
    | ok b =>
      refine ⟨by rw [rest.1], fun call mem => ?_⟩
      exact (List.mem_append.mp mem).elim (succeeded call) (rest.2 call)
    | error fault => exact (List.prefix_append_right_inj _).mpr rest
  · obtain ⟨made, chain, begun⟩ := first s (.error fault) s' failed
    exact ⟨made, chain, begun.trans (List.prefix_append _ _)⟩

/-- What comes first without a call does not change the calls. -/
theorem after (first : action.Makes config []) (rest : ∀ a, (next a).Makes config calls) :
    (action >>= next).Makes config calls :=
  first.bind rest

/-- What comes last without a call does not change the calls. -/
theorem before (first : action.Makes config calls) (rest : ∀ a, (next a).Makes config []) :
    (action >>= next).Makes config calls := by
  have both := first.bind rest
  rwa [List.append_nil] at both

end Action.Makes

/-! ### Rules -/

namespace Config

open CellC.Action (Makes)

variable {config : Config}

section Steps

theorem makes_emit {event : Event} (plain : event.IsRemark = true) :
    (Action.emit event).Makes config [] :=
  .of_still fun s result s' returned => by
    cases result <;> cases returned
    exact ⟨rfl, rfl, rfl, [event], by simpa using plain, by simp⟩

theorem makes_ofExcept (outcome : Except Fault Cell) :
    (Action.ofExcept outcome).Makes config [] := by
  cases outcome with
  | ok cell => exact .pure cell
  | error fault => exact .fail fault

theorem makes_modifyTop (f : Frame → Frame) : (Action.modifyTop f).Makes config [] :=
  .of_still fun s result s' returned => by
    cases result <;> cases returned
    exact .of_depth (CallStack.depth_modifyTop f s.stack) rfl rfl rfl

/-- What leaves the state alone makes no call. -/
theorem makes_of_settles {action : Action α}
    (settles : ∀ s, Action.Settles (· = s) (fun _ t => t = s) (action.run s)) :
    action.Makes config [] :=
  .of_still fun s result s' returned => by
    have same := Outcome.of_settles (R := fun s t => t = s) (E := fun _ s t => t = s) (settles s)
      returned
    exact same.elim ▸ .refl s

theorem makes_varValue (var : VarId) : (config.varValue var).Makes config [] :=
  makes_of_settles fun s => Steps.settles_varValue (fun _ _ _ same => same) var s rfl

theorem makes_loadAt (address : Address) (type : TypeId) :
    (config.loadAt address type).Makes config [] :=
  makes_of_settles fun s => Steps.settles_loadAt (fun _ _ _ same => same) address type s rfl

theorem makes_storeAt (address : Address) (type : TypeId) (value : Value) :
    (config.storeAt address type value).Makes config [] :=
  .of_still fun s result s' returned => by
    unfold Action.Returns storeAt at returned
    rw [Action.run_store] at returned
    cases stored : s.heap.store address (config.types.width type) value.cell with
    | ok heap =>
      rw [stored] at returned
      cases result <;> cases returned
      exact .of_depth rfl rfl rfl rfl
    | error fault =>
      rw [stored] at returned
      cases result <;> cases returned
      exact .refl s

theorem makes_assignVar (var : VarId) (value : Value) :
    (config.assignVar var value).Makes config [] :=
  .of_still fun s result s' returned => by
    unfold Action.Returns assignVar at returned
    rw [Action.run_get_bind] at returned
    split at returned
    · cases result <;> cases returned
      exact .of_depth rfl rfl rfl rfl
    · cases result <;> cases returned
      exact .of_depth (CallStack.depth_modifyTop _ s.stack) rfl rfl rfl

end Steps

section Expressions

variable {eval : ExprId → Action Value}
  (heval : ∀ id order, config.program.CallOrder [id] order → (eval id).Makes config order)
  {order : List ExprId}
include heval

/-- The address of an element makes the calls of the base and then those of the index. -/
theorem makes_subscript {base index : ExprId}
    (written : config.program.CallOrder [base, index] order) :
    (config.subscript eval base index).Makes config order := by
  obtain ⟨first, second, hbase, hindex, rfl⟩ := written.uncons
  exact (heval base first hbase).bind fun _ => (heval index second hindex).before fun _ => .pure _

/-- A unary operation makes the calls of its operand. -/
theorem makes_unary {operand : ExprId} (written : config.program.CallOrder [operand] order)
    (op : UnaryOp) (type : TypeId) : (config.unary eval op operand type).Makes config order := by
  have value := heval operand order written
  cases op with
  | addrOf => exact .fail _
  | deref => exact value.before fun _ => makes_loadAt _ _
  | neg | plus | bitNot | not =>
    exact value.before fun _ => (makes_ofExcept _).after fun _ => .pure _

/-- The value comes first, and then the parts of the target. -/
theorem makes_assign {target value : ExprId}
    (written : config.program.CallOrder [value, target] order) :
    (config.assign eval target value).Makes config order := by
  obtain ⟨first, second, hvalue, htarget, rfl⟩ := written.uncons
  refine (heval value first hvalue).bind fun v => ?_
  obtain ⟨⟨form, type⟩, inner, found, parts, rfl⟩ := htarget.unparen.single
  dsimp only
  rw [found]
  show ((pure ⟨form, type⟩ : Action Expr) >>= _).Makes config _
  rw [pure_bind]
  have finish (stored : Value) (_ : Unit) :
      (do
        Action.record (config.program.unparen target) stored
        pure stored : Action Value).Makes config [] :=
    (makes_modifyTop _).after fun _ => .pure _
  cases form with
  | ident var =>
    cases parts
    exact (makes_assignVar var _).after (finish _)
  | index base index =>
    rw [ExprForm.ownCall, List.append_nil]
    refine (makes_subscript heval parts).before fun _ => ?_
    exact (makes_storeAt _ _ _).after (finish _)
  | unary op operand =>
    cases op with
    | deref =>
      rw [ExprForm.ownCall, List.append_nil]
      refine (heval operand inner parts).before fun _ => ?_
      exact (makes_storeAt _ _ _).after (finish _)
    | neg | plus | bitNot | not | addrOf => exact (Makes.fail _).before (finish _)
  | intLit | charLit | strLit | paren | sizeOf | binary | call | cast =>
    exact (Makes.fail _).before (finish _)

/-- A binary operation makes the calls of its operands, in the order in which they are evaluated. -/
theorem makes_binary {op : BinaryOp} {left right : ExprId} {type : TypeId}
    (written : config.program.CallOrder (ExprForm.binary op left right).parts order) :
    (config.binary eval op left right type).Makes config order := by
  unfold binary
  split
  · exact .fail _
  split
  · next assigns =>
    refine makes_assign heval ?_
    rwa [ExprForm.parts, if_pos assigns] at written
  · next reads =>
    rw [ExprForm.parts, if_neg reads] at written
    obtain ⟨first, second, hleft, hright, rfl⟩ := written.uncons
    refine (heval left first hleft).bind fun _ => (heval right second hright).before fun _ => ?_
    exact (makes_ofExcept _).after fun _ => .pure _

/-- An argument list makes the calls of its expressions from left to right. -/
theorem makes_args {exprs : List ExprId} (written : config.program.CallOrder exprs order) :
    (Config.args eval exprs).Makes config order := by
  induction exprs generalizing order with
  | nil =>
    cases written
    exact .pure []
  | cons expr exprs ih =>
    obtain ⟨first, rest, hexpr, hexprs, rfl⟩ := written.uncons
    exact (heval expr first hexpr).bind fun _ => (ih hexprs).before fun _ => .pure _

end Expressions

variable {levels : Nat}

/-- A call is made once all calls in its arguments are. -/
theorem makes_call
    (heval : ∀ id order, config.program.CallOrder [id] order →
      (CellC.eval config levels id).Makes config order)
    {id : ExprId} {callee : FuncId} {args : List ExprId} {type : TypeId} {order : List ExprId}
    (found : config.program.expr? id = some ⟨.call callee args, type⟩)
    (written : config.program.CallOrder args order) :
    (config.call (CellC.eval config levels) (config.functionCall (CellC.exec config levels)) id
      callee args type).Makes config (order ++ [id]) := by
  refine (makes_emit rfl).after fun _ => ?_
  intro s result s' returned
  obtain ⟨values, t, evaluated, rest⟩ | ⟨fault, rfl, failed⟩ := Action.returns_bind_iff.mp returned
  · obtain ⟨made, chain, rfl, succeeded⟩ := makes_args heval written s (.ok values) t evaluated
    -- The call counts as made whether it yields a value or not.
    let call : CallRecord := ⟨id, values, t, result, s'⟩
    have last : config.Made call := by
      refine ⟨levels, callee, args, type, s, found, evaluated, ?_⟩
      rw [carryOut_eq_answer, run_dispatchScript]
      exact rest
    refine ⟨made ++ [call], chain.append (.call (.refl t) last (.still (.refl s'))), ?_⟩
    rw [List.map_append]
    cases result with
    | ok value =>
      refine ⟨rfl, fun other mem => ?_⟩
      obtain mem | mem := List.mem_append.mp mem
      · exact succeeded other mem
      · rw [List.mem_singleton.mp mem]
        exact ⟨value, rfl⟩
    | error fault => exact List.prefix_rfl
  · obtain ⟨made, chain, begun⟩ := makes_args heval written s (.error fault) s' failed
    exact ⟨made, chain, begun.trans (List.prefix_append _ _)⟩

/-- Whatever its form, an expression makes the calls of its parts in order, and then its own. -/
theorem makes_expression
    (heval : ∀ id order, config.program.CallOrder [id] order →
      (CellC.eval config levels id).Makes config order)
    {id : ExprId} {expr : Expr} {inner : List ExprId}
    (found : config.program.expr? id = some expr)
    (parts : config.program.CallOrder expr.form.parts inner) :
    (config.expression (CellC.eval config levels) (config.functionCall (CellC.exec config levels))
      id expr).Makes config (inner ++ expr.form.ownCall id) := by
  obtain ⟨form, type⟩ := expr
  cases form with
  | call callee args => exact makes_call heval found parts
  | ident var =>
    cases parts
    exact makes_varValue var
  | intLit | charLit | sizeOf =>
    cases parts
    exact .pure _
  | strLit => exact .fail _
  | paren operand | cast _ _ operand =>
    rw [ExprForm.ownCall, List.append_nil]
    exact heval operand inner parts
  | unary op operand =>
    rw [ExprForm.ownCall, List.append_nil]
    exact makes_unary heval parts op type
  | binary op left right =>
    rw [ExprForm.ownCall, List.append_nil]
    exact makes_binary heval parts
  | index base index =>
    rw [ExprForm.ownCall, List.append_nil]
    exact (makes_subscript heval parts).before fun _ => makes_loadAt _ _

/-- An evaluation makes the calls that are written in the expression. -/
theorem makes_eval {id : ExprId} {order : List ExprId}
    (written : config.program.CallOrder [id] order) :
    (CellC.eval config levels id).Makes config order := by
  induction levels generalizing id order with
  | zero => exact .throw _ (by simp)
  | succ levels ih =>
    obtain ⟨expr, inner, found, parts, rfl⟩ := written.single
    rw [eval_succ, evaluation, found]
    show ((pure expr : Action Expr) >>= _).Makes config _
    rw [pure_bind]
    refine (makes_expression (fun id order => ih) found parts).before fun value => ?_
    exact (makes_modifyTop _).after fun _ => .pure _

end Config

/-- Let `order` be the calls written in an expression, in order: of a binary operator those in the
left operand come first, of a subscript those in the base, of a call those in the arguments from
left to right and then the call itself, but of an assignment those in the value. Expressions that
were composed of existing ones have exactly one such order. An evaluation that yields a value makes
exactly these calls in this order, and one that fails makes the first ones of them. All of them are
made by the activation at hand, which announces no others; and what is printed and read is what they
print and read, one after the other. -/
theorem evaluation_order {config : Config} {id : ExprId} {order : List ExprId}
    (written : config.program.CallOrder [id] order) {levels : Nat} {s s' : State}
    {result : Except Fault Value} (ended : (eval config levels id).Returns s result s') :
    ∃ made, config.Chain s made s' ∧
      (∀ value, result = .ok value → made.map CallRecord.expr = order ∧
        ∀ call ∈ made, ∃ value, call.result = .ok value) ∧
      (∀ fault, result = .error fault → made.map CallRecord.expr <+: order) ∧
      (∀ call ∈ made, call.before.stack.depth = s.stack.depth) ∧
      s.Announces (made.map CallRecord.expr) s' ∧
      s'.printer = s.printer.extended (made.flatMap CallRecord.printed) ∧
      s.input.upcoming = made.flatMap CallRecord.consumed ++ s'.input.upcoming := by
  obtain ⟨made, chain, calls⟩ := Config.makes_eval written s result s' ended
  obtain ⟨advances, printed, consumed⟩ := chain.advances
  refine ⟨made, chain, ?_, ?_, chain.depth, chain.announces, ?_, ?_⟩
  · rintro value rfl
    exact calls
  · rintro fault rfl
    exact calls
  · rw [← printed]
    exact advances.printer_eq
  · rw [← consumed]
    exact advances.upcoming_eq

/-- A function that prints its argument and yields it, and an assignment of a call of it to an array
element whose number is another call. -/
def assignElement : Config where
  program := {
    types := ⟨⟨#[.int, .char, .void, .array .int 2]⟩⟩
    names := ⟨⟨#["", "PRINT", "f", "p", "a"]⟩⟩
    vars := #[⟨⟨3⟩, .int, none⟩, ⟨⟨4⟩, ⟨3⟩, none⟩]
    exprs := #[⟨.ident ⟨0⟩, .int⟩, ⟨.call ⟨0⟩ [⟨0⟩], .int⟩, ⟨.ident ⟨0⟩, .int⟩,
      ⟨.ident ⟨1⟩, ⟨3⟩⟩, ⟨.intLit 0, .int⟩, ⟨.call ⟨1⟩ [⟨4⟩], .int⟩, ⟨.index ⟨3⟩ ⟨5⟩, .int⟩,
      ⟨.intLit 7, .int⟩, ⟨.call ⟨1⟩ [⟨7⟩], .int⟩, ⟨.binary .assign ⟨6⟩ ⟨8⟩, .int⟩]
    stmts := #[.expr ⟨1⟩, .return (some ⟨2⟩), .compound [⟨0⟩, ⟨1⟩], .decl [⟨1⟩]]
    funcs := #[⟨⟨1⟩, [], .int, none⟩, ⟨⟨2⟩, [⟨0⟩], .int, some ⟨2⟩⟩]
    topLevel := #[.function ⟨0⟩, .function ⟨1⟩] }
  setup := {
    primitives := ({} : Std.TreeMap Nat Primitive).insert 0 .print
    entry := ⟨1⟩ }

open Program.CallOrder in
/-- The call in the value comes before that in the target. -/
theorem callOrder_assignElement : assignElement.program.CallOrder [⟨9⟩] [⟨8⟩, ⟨5⟩] := by
  have found (id : ExprId) (expr : Expr) (h : assignElement.program.expr? id = some expr) := h
  have value := of_single (found ⟨8⟩ _ rfl) (of_head (of_single (found ⟨7⟩ _ rfl) nil) nil)
  have position := of_single (found ⟨5⟩ _ rfl) (of_head (of_single (found ⟨4⟩ _ rfl) nil) nil)
  have target := of_single (found ⟨6⟩ _ rfl)
    (of_head (of_single (found ⟨3⟩ _ rfl) nil) (of_head position nil))
  have whole := of_single (found ⟨9⟩ _ rfl) (of_head value (of_head target nil))
  exact whole

/-- In an assignment to an element of an array, the call in the value prints first. -/
theorem evaluation_order_assignElement : ∃ s s' made,
    (exec assignElement 5 ⟨3⟩).Returns {} (.ok .completed) s ∧
      (eval assignElement 9 ⟨9⟩).Returns s (.ok (.int 7)) s' ∧
      assignElement.Chain s made s' ∧ made.map CallRecord.expr = [⟨8⟩, ⟨5⟩] ∧
      s'.printer = s.printer.extended (made.flatMap CallRecord.printed) ∧
      s'.printer.lines = #["7", "0"] := by
  have returns : ∃ s s', (exec assignElement 5 ⟨3⟩).Returns {} (.ok .completed) s ∧
      (eval assignElement 9 ⟨9⟩).Returns s (.ok (.int 7)) s' ∧ s'.printer.lines = #["7", "0"] :=
    ⟨_, _, rfl, rfl, rfl⟩
  obtain ⟨s, s', declared, ended, lines⟩ := returns
  obtain ⟨made, chain, succeeded, -, -, -, printed, -⟩ :=
    evaluation_order callOrder_assignElement ended
  exact ⟨s, s', made, declared, ended, chain, (succeeded _ rfl).1, printed, lines⟩

end CellC
