import CellC.Proofs.Derivations

/-!
# Expressions without effects

An expression whose evaluation succeeds and leaves everything as it was, up to what is recorded for
expressions and reported in the journal, yields its value again and again, in the same state and in
every state that such evaluations lead to. It may call functions, as long as they undo what they do.
Operators of expressions of this kind are of this kind, too.

## Main definitions

* `State.Unaffected`: states that differ in what is recorded and reported at most
* `Config.Yields`: an expression yields a value and has no other effect

## Main results

* `Config.Yields.unique`: an expression yields one value
* `Config.Yields.of_unaffected`: it yields the same in every state that is not affected
* `Config.Yields.intLit`, `Config.Yields.ident`: literals and variables
* `Config.Yields.binary`: the operators that compute with the values of their operands
-/

namespace CellC

/-! ### States that are not affected -/

/-- The frames hold the same, up to what is recorded for expressions. -/
structure Frame.SameButRecords (frame other : Frame) : Prop where
  vars : other.vars = frame.vars
  ret : other.ret = frame.ret
  arrays : other.arrays = frame.arrays

namespace Frame.SameButRecords

variable {first second third : Frame}

theorem symm (h : first.SameButRecords second) : second.SameButRecords first :=
  ⟨h.vars.symm, h.ret.symm, h.arrays.symm⟩

theorem trans (h : first.SameButRecords second) (h' : second.SameButRecords third) :
    first.SameButRecords third :=
  ⟨h'.vars.trans h.vars, h'.ret.trans h.ret, h'.arrays.trans h.arrays⟩

theorem record (h : first.SameButRecords second) (expr : ExprId) (value : Value) :
    first.SameButRecords (second.record expr value) :=
  ⟨h.vars, h.ret, h.arrays⟩

end Frame.SameButRecords

theorem Frame.congruence_sameButRecords : Frame.Congruence Frame.SameButRecords where
  refl _ := ⟨rfl, rfl, rfl⟩
  vars h := h.vars
  ret h := h.ret
  arrays h := h.arrays
  bind var value h := ⟨by simp only [Frame.bind, h.vars], h.ret, h.arrays⟩
  record _ _ h := ⟨h.vars, h.ret, h.arrays⟩
  returning _ h := ⟨h.vars, rfl, h.arrays⟩
  adopt base h := ⟨h.vars, h.ret, congrArg (· ++ [base]) h.arrays⟩

/-- The states differ in what is recorded for expressions and reported in the journal at most. -/
abbrev State.Unaffected (s t : State) : Prop := s.Agrees Frame.SameButRecords (fun _ => false) t

namespace State.Unaffected

variable {s t u : State}

protected theorem refl (s : State) : s.Unaffected s :=
  State.Agrees.refl Frame.congruence_sameButRecords s

protected theorem symm (h : s.Unaffected t) : t.Unaffected s :=
  State.Agrees.symm h fun same => same.symm

protected theorem trans (h : s.Unaffected t) (h' : t.Unaffected u) : s.Unaffected u :=
  State.Agrees.trans h (fun _ _ _ same same' => same.trans same') h'

/-- What is recorded makes no difference. -/
protected theorem record (h : s.Unaffected t) (expr : ExprId) (value : Value) :
    s.Unaffected { t with stack := t.stack.modifyTop (·.record expr value) } := by
  have kept := State.Agrees.modifyTop h (f := id) (g := (·.record expr value))
    (h.stack.top.record expr value)
  rwa [CallStack.modifyTop_id] at kept

end State.Unaffected

/-! ### What an expression yields -/

namespace Config

variable {config : Config} {id left right z : ExprId} {s t : State} {v w : Value}

/-- The evaluation of the expression succeeds with the value and has no effect. -/
def Yields (config : Config) (id : ExprId) (s : State) (v : Value) : Prop :=
  ∃ t, config.Evaluates id s (.ok v) t ∧ s.Unaffected t

namespace Yields

/-- An expression yields one value. -/
theorem unique (h : config.Yields id s v) (h' : config.Yields id s w) : v = w := by
  obtain ⟨t, evaluated, -⟩ := h
  obtain ⟨u, evaluated', -⟩ := h'
  exact Except.ok.inj (evaluated.unique evaluated').1

/-- An expression yields the same in states that are not affected. -/
theorem of_unaffected (h : config.Yields id s v) (same : s.Unaffected t) :
    config.Yields id t v := by
  obtain ⟨s', ⟨levels, evaluated⟩, unaffected⟩ := h
  obtain ⟨t', evaluated', same'⟩ :=
    (follows_trees Frame.congruence_sameButRecords config levels).1 id same evaluated
  exact ⟨t', ⟨levels, evaluated'⟩, (same.symm.trans unaffected).trans same'⟩

/-- What is evaluated without effects yields its value, which is recorded. -/
theorem of_expression (levels : Nat) {expr : Expr} (found : config.program.expr? id = some expr)
    (returned : (config.expression (CellC.eval config levels)
      (config.functionCall (CellC.exec config levels)) id expr).Returns s (.ok v) t)
    (same : s.Unaffected t) : config.Yields id s v :=
  ⟨_, ⟨levels + 1, returns_eval_ok found returned⟩, same.record id v⟩

/-- An integer literal yields its number. -/
theorem intLit {n : Cell} {type : TypeId}
    (found : config.program.expr? id = some ⟨.intLit n, type⟩) : config.Yields id s (.int n) :=
  ⟨_, evaluates_ok found (finishes_pure _ s), (State.Unaffected.refl s).record id _⟩

/-- A variable yields the value that it has. -/
theorem ident {var : VarId} {type : TypeId}
    (found : config.program.expr? id = some ⟨.ident var, type⟩)
    (visible : config.visibleValue? s.stack var = some v) : config.Yields id s v := by
  have looked : config.Ends (.operate (.varValue var)) s (.ok v) s := by
    apply ends_operate
    show (config.varValue var).Returns s (.ok v) s
    unfold Action.Returns varValue
    rw [Action.run_get_bind, visible]
    rfl
  exact ⟨_, evaluates_ok found (finishes_request.mpr looked),
    (State.Unaffected.refl s).record id v⟩

/-- An operator yields what it makes of the cells of its operands, after scaling. -/
theorem binary {op : BinaryOp} {type : TypeId} {cell : Cell}
    (found : config.program.expr? z = some ⟨.binary op left right, type⟩)
    (supported : op.supported = true) (computes : op.assigns = false)
    (first : config.Yields left s v) (second : config.Yields right s w)
    (applied : op.apply
        (config.scaled op (config.program.exprType left) (config.program.exprType right)
          v.cell w.cell).1
        (config.scaled op (config.program.exprType left) (config.program.exprType right)
          v.cell w.cell).2 = .ok cell) :
    config.Yields z s (config.types.view type cell) := by
  obtain ⟨t, evaluated, same⟩ := first
  obtain ⟨u, evaluated', same'⟩ := second.of_unaffected same
  exact ⟨_, evaluated.binary found supported computes evaluated' applied,
    (same.trans same').record z _⟩

end Yields

end Config

end CellC
