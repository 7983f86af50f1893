import CellC.Proofs.Arrays.Elements
import CellC.Proofs.CallOrder

/-!
# Evaluating again

An expression without calls, assignments and loads from memory is computed from variables and
literals. Its evaluation changes no variable and nothing in memory, and wherever the same values of
variables are seen, it evaluates to the same value again.

## Main definitions

* `Program.Calm`: expressions without calls, assignments and loads
* `Config.SameView`: states in which the same values of variables are seen
* `Config.Repeats`: an action yields the same value wherever the same variables are seen

## Main results

* `Config.repeats_eval`: the evaluation of such an expression can be repeated
-/

namespace CellC

variable {α β : Type}

/-! ### Calm expressions -/

/-- Apart from its parts, an expression of this form and type is computed from variables and
literals: it is no call and no assignment, and no object is loaded from memory. -/
def Expr.Calm (types : TypeTable) (expr : Expr) : Prop :=
  match expr.form with
  | .call _ _ => False
  | .binary op _ _ => op.assigns = false
  | .index _ _ | .unary .deref _ => types.isArray expr.type = true
  | _ => True

/-- As far as it is evaluated, the expression contains no call, no assignment and no load from
memory. Arrays are found in memory, but they are not loaded. -/
inductive Program.Calm (program : Program) : ExprId → Prop
  | intro {id : ExprId} {expr : Expr} : program.expr? id = some expr → expr.Calm program.types →
    (∀ part ∈ expr.form.parts, Calm program part) → Calm program id

namespace Config

variable {config : Config}

/-! ### Repeated actions -/

/-- In both states the same values of variables are seen. -/
def SameView (config : Config) (s t : State) : Prop :=
  ∀ var, config.visibleValue? t.stack var = config.visibleValue? s.stack var

theorem SameView.refl (s : State) : config.SameView s s := fun _ => rfl

theorem SameView.symm {s t : State} (h : config.SameView s t) : config.SameView t s :=
  fun var => (h var).symm

theorem SameView.trans {s t u : State} (h : config.SameView s t) (h' : config.SameView t u) :
    config.SameView s u := fun var => (h' var).trans (h var)

/-- A record changes no variable. -/
theorem sameView_record (s : State) (id : ExprId) (value : Value) :
    config.SameView s (s.record id value) := config.visibleValue?_record s id value

/-- If the action yields a value, then it does so again wherever the same values of variables are
seen. It changes neither those nor the heap. -/
def Repeats (config : Config) (action : Action α) : Prop :=
  ∀ ⦃s a s'⦄, action.Returns s (.ok a) s' → config.SameView s s' ∧
    ∀ ⦃t⦄, config.SameView s t →
      ∃ t', action.Returns t (.ok a) t' ∧ config.SameView t t' ∧ t'.heap = t.heap

namespace Repeats

protected theorem pure (a : α) : config.Repeats (pure a) := by
  intro s b s' returned
  cases returned
  exact ⟨.refl s, fun t _ => ⟨t, rfl, .refl t, rfl⟩⟩

theorem throw (halt : Halt) : config.Repeats (throw halt : Action α) := by
  rintro s a s' ⟨⟩

theorem ofExcept (outcome : Except Fault α) : config.Repeats (Action.ofExcept outcome) := by
  cases outcome with
  | error fault => exact throw _
  | ok a => exact .pure a

/-- A sequence repeats when both of its parts do. -/
protected theorem bind {action : Action α} {next : α → Action β} (first : config.Repeats action)
    (rest : ∀ a, config.Repeats (next a)) : config.Repeats (action >>= next) := by
  intro s b s' returned
  obtain ⟨a, u, returned, following⟩ := returned.of_bind
  obtain ⟨kept, again⟩ := first returned
  obtain ⟨kept', again'⟩ := rest a following
  refine ⟨kept.trans kept', fun t view => ?_⟩
  obtain ⟨v, returned', view', heap⟩ := again view
  obtain ⟨t', following', view'', heap'⟩ := again' (kept.symm.trans (view.trans view'))
  exact ⟨t', Action.returns_bind_iff.mpr (.inl ⟨a, v, returned', following'⟩), view'.trans view'',
    heap'.trans heap⟩

theorem record (id : ExprId) (value : Value) : config.Repeats (Action.record id value) := by
  intro s a s' returned
  cases returned
  exact ⟨sameView_record s id value, fun t _ => ⟨t.record id value, rfl, sameView_record t id value,
    rfl⟩⟩

end Repeats

/-- What is read from a variable is read again where the same values are seen. -/
theorem repeats_varValue (var : VarId) : config.Repeats (config.varValue var) := by
  intro s v s' returned
  unfold varValue Action.Returns at returned
  rw [Action.run_get_bind] at returned
  cases seen : config.visibleValue? s.stack var with
  | none =>
    rw [seen] at returned
    cases returned
  | some value =>
    rw [seen] at returned
    cases returned
    refine ⟨.refl s, fun t view => ⟨t, ?_, .refl t, rfl⟩⟩
    unfold varValue Action.Returns
    rw [Action.run_get_bind, view var, seen]
    rfl

/-- Arrays are not loaded. -/
theorem repeats_loadAt {type : TypeId} (array : config.types.isArray type = true)
    (address : Address) : config.Repeats (config.loadAt address type) := by
  unfold loadAt
  rw [if_pos array]
  exact .pure _

/-! ### Rules -/

section Rules

variable {eval : ExprId → Action Value} {form : ExprForm}
  (heval : ∀ part ∈ form.parts, config.Repeats (eval part))

/-- An address is found again when base and index are computed again. -/
theorem repeats_subscript {base index : ExprId} (first : config.Repeats (eval base))
    (second : config.Repeats (eval index)) :
    config.Repeats (config.subscript eval base index) :=
  first.bind fun _ => second.bind fun _ => .pure _

/-- An operation that assigns nothing repeats with its operands. -/
theorem repeats_binary {op : BinaryOp} (computes : op.assigns = false) {left right : ExprId}
    (first : config.Repeats (eval left)) (second : config.Repeats (eval right)) (type : TypeId) :
    config.Repeats (config.binary eval op left right type) := by
  unfold binary
  rw [computes]
  split
  · exact .throw _
  · exact first.bind fun _ => second.bind fun _ => (Repeats.ofExcept _).bind fun _ => .pure _

include heval in
/-- A calm form repeats when its parts do. -/
theorem repeats_expression {invoke : FuncId → List Value → TypeId → Action Value} (id : ExprId)
    {type : TypeId} (calm : Expr.Calm config.types ⟨form, type⟩) :
    config.Repeats (config.expression eval invoke id ⟨form, type⟩) := by
  cases form with
  | ident var => exact repeats_varValue var
  | intLit | charLit | sizeOf => exact .pure _
  | strLit => exact .throw _
  | paren operand | cast _ _ operand => exact heval operand List.mem_cons_self
  | unary op operand =>
    have part := heval operand List.mem_cons_self
    cases op with
    | addrOf => exact .throw _
    | deref => exact part.bind fun _ => repeats_loadAt calm _
    | neg | plus | bitNot | not =>
      exact part.bind fun _ => (Repeats.ofExcept _).bind fun _ => .pure _
  | binary op left right =>
    have computes : op.assigns = false := calm
    rw [ExprForm.parts, computes] at heval
    exact repeats_binary computes (heval left List.mem_cons_self)
      (heval right (List.mem_cons_of_mem _ List.mem_cons_self)) type
  | index base index =>
    have found := repeats_subscript (heval base List.mem_cons_self)
      (heval index (List.mem_cons_of_mem _ List.mem_cons_self))
    exact found.bind fun address => repeats_loadAt calm address
  | call callee args => cases calm

end Rules

/-- The evaluation of a calm expression can be repeated. -/
theorem repeats_eval {id : ExprId} (calm : config.program.Calm id) (levels : Nat) :
    config.Repeats (CellC.eval config levels id) := by
  -- The induction is on the parts: what they yield again is what the rule asks for.
  induction calm generalizing levels with
  | @intro id expr found calm _ ih =>
    cases levels with
    | zero => exact .throw _
    | succ levels =>
      rw [eval_succ, evaluation, found, Action.ofOption, pure_bind]
      refine (repeats_expression (fun part member => ih part member levels) id calm).bind
        fun value => ?_
      exact (Repeats.record id value).bind fun _ => .pure value

end Config

end CellC
