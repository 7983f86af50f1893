import CellC.Proofs.Building
import Mathlib.Logic.ExistsUnique

/-!
# The order of calls

The calls written in an expression happen in an order that its form determines: first those in its
parts, part after part, and then the call itself if the expression is one. Of an assignment the
value comes before the target. The operand of `sizeof` is no part in this sense.

## Main definitions

* `ExprForm.parts`: the parts of an expression in the order of their evaluation
* `Program.CallOrder`: the calls in expressions, in order
* `Program.Descending`: parts have smaller numbers than the expressions they are parts of

## Main results

* `Program.Descending.exists_callOrder`: where parts have smaller numbers, there is an order
* `Program.Composed.existsUnique_callOrder`: expressions that were composed of existing ones have
  exactly one order
-/

namespace CellC

/-- The parts of an expression that are evaluated with it, in order. -/
def ExprForm.parts : ExprForm → List ExprId
  | ident _ | intLit _ | charLit _ | strLit _ | sizeOf _ => []
  | paren inner => [inner]
  | unary _ operand => [operand]
  | binary op left right => if op.assigns then [right, left] else [left, right]
  | .index base position => [base, position]
  | call _ args => args
  | cast _ _ operand => [operand]

/-- The expression itself if it is a call. -/
def ExprForm.ownCall (id : ExprId) : ExprForm → List ExprId
  | call _ _ => [id]
  | ident _ | intLit _ | charLit _ | strLit _ | paren _ | sizeOf _ | unary _ _ | binary _ _ _
  | index _ _ | cast _ _ _ => []

namespace Program

/-- The calls in some expressions that are evaluated one after the other, in order: of each one, the
calls in its parts and then the expression itself if it is a call. -/
inductive CallOrder (program : Program) : List ExprId → List ExprId → Prop
  | nil : CallOrder program [] []
  | cons {id : ExprId} {expr : Expr} {ids inner rest : List ExprId} :
    program.expr? id = some expr → CallOrder program expr.form.parts inner →
    CallOrder program ids rest →
    CallOrder program (id :: ids) (inner ++ expr.form.ownCall id ++ rest)

namespace CallOrder

variable {program : Program} {id : ExprId} {ids order order' : List ExprId}

/-- There is one order. -/
theorem unique (h : program.CallOrder ids order) (h' : program.CallOrder ids order') :
    order = order' := by
  induction h generalizing order' with
  | nil =>
    cases h'
    rfl
  | cons found _ _ parts rest =>
    cases h' with
    | cons found' parts' rest' =>
      cases found.symm.trans found'
      rw [parts parts', rest rest']

theorem of_single {expr : Expr} {inner : List ExprId} (found : program.expr? id = some expr)
    (parts : program.CallOrder expr.form.parts inner) :
    program.CallOrder [id] (inner ++ expr.form.ownCall id) := by
  have whole := CallOrder.cons found parts .nil
  rwa [List.append_nil] at whole

/-- The calls in one expression are those in its parts and possibly itself. -/
theorem single (h : program.CallOrder [id] order) :
    ∃ expr inner, program.expr? id = some expr ∧ program.CallOrder expr.form.parts inner ∧
      order = inner ++ expr.form.ownCall id := by
  cases h with
  | cons found parts rest =>
    cases rest
    exact ⟨_, _, found, parts, List.append_nil _⟩

/-- The calls in the first expression come before those in the others. -/
theorem uncons (h : program.CallOrder (id :: ids) order) :
    ∃ first rest, program.CallOrder [id] first ∧ program.CallOrder ids rest ∧
      order = first ++ rest := by
  cases h with
  | cons found parts rest => exact ⟨_, _, of_single found parts, rest, rfl⟩

theorem of_head {first rest : List ExprId} (h : program.CallOrder [id] first)
    (h' : program.CallOrder ids rest) : program.CallOrder (id :: ids) (first ++ rest) := by
  obtain ⟨expr, inner, found, parts, rfl⟩ := h.single
  exact .cons found parts h'

/-- Parentheses make no difference. -/
theorem unparenWithin (h : program.CallOrder [id] order) (layers : Nat) :
    program.CallOrder [program.unparenWithin layers id] order := by
  induction layers generalizing id order with
  | zero => exact h
  | succ layers ih =>
    obtain ⟨⟨form, type⟩, inner, found, parts, rfl⟩ := h.single
    rw [Program.unparenWithin, found]
    cases form with
    | paren operand =>
      show program.CallOrder [program.unparenWithin layers operand] (inner ++ [])
      rw [List.append_nil]
      exact ih parts
    | ident | intLit | charLit | strLit | sizeOf | unary | binary | index | call | cast => exact h

theorem unparen (h : program.CallOrder [id] order) :
    program.CallOrder [program.unparen id] order :=
  h.unparenWithin _

end CallOrder

/-- Every part of an expression has a smaller number. -/
def Descending (program : Program) : Prop :=
  ∀ id expr, program.expr? id = some expr → ∀ part ∈ expr.form.parts, part.index < id.index

/-- Where parts have smaller numbers, the calls in any expressions have an order. -/
theorem Descending.exists_callOrder {program : Program} (h : program.Descending) (n : Nat)
    {ids : List ExprId} (known : ∀ id ∈ ids, id.index < n) (le : n ≤ program.exprs.size) :
    ∃ order, program.CallOrder ids order := by
  -- The outer induction leads into the parts, the inner one along the list.
  induction n using Nat.strongRecOn generalizing ids with
  | _ n ih =>
    induction ids with
    | nil => exact ⟨[], .nil⟩
    | cons id ids rest =>
      have lt := known id List.mem_cons_self
      have found : program.expr? id = some program.exprs[id.index] :=
        Array.getElem?_eq_getElem (by omega)
      obtain ⟨inner, parts⟩ := ih id.index lt (h id _ found) (by omega)
      obtain ⟨others, rest⟩ := rest fun id mem => known id (List.mem_cons_of_mem _ mem)
      exact ⟨_, .cons found parts rest⟩

end Program

/-- If the step adds an expression, then all its parts are there. -/
def Construction.Composes (program : Program) : Construction → Prop
  | expr form => ∀ part ∈ form.parts, part.index < program.exprs.size
  | type _ | function _ _ | prototype _ _ _ | param _ _ _ | body _ _ | var _ _ _ | global _ _ _
  | string _ | stmt _ => True

namespace Program

/-- The program is built in steps that compose expressions of those that are there already. -/
inductive Composed : Program → Prop
  | empty : Composed {}
  | step {program : Program} (construction : Construction) : Composed program →
    construction.Composes program → Composed (construction.run.run program).2

theorem Descending.of_same {before after : Program} (h : before.Descending)
    (same : after.exprs = before.exprs) : after.Descending := by
  intro id expr found
  unfold expr? at found
  rw [same] at found
  exact h id expr found

/-- An appended expression keeps the numbers descending if its parts are there. -/
theorem Descending.append {program : Program} (h : program.Descending) {form : ExprForm}
    (there : ∀ part ∈ form.parts, part.index < program.exprs.size) :
    ((Builder.expr form).run program).2.Descending := by
  intro id expr found
  unfold expr? at found
  rw [Builder.exprs_run_expr, Array.getElem?_push] at found
  split at found
  · next last =>
    cases found
    rw [last]
    exact there
  · exact h id expr found

theorem Composed.descending {program : Program} (h : program.Composed) : program.Descending := by
  induction h with
  | empty => intro id expr found; cases found
  | @step program construction _ composes ih =>
    obtain grown | ⟨beside, form, grown, appended, added⟩ := run_cases construction program
    · exact ih.of_same grown.same
    · rw [appended]
      refine (ih.of_same grown.same).append ?_
      obtain ⟨rfl, rfl⟩ | ⟨name, rfl⟩ := added
      · exact composes
      · simp [ExprForm.parts]

/-- Every expression of a composed program has exactly one order of calls. -/
theorem Composed.existsUnique_callOrder {program : Program} (h : program.Composed) {id : ExprId}
    (known : id.index < program.exprs.size) : ∃! order, program.CallOrder [id] order := by
  obtain ⟨order, written⟩ := h.descending.exists_callOrder program.exprs.size
    (fun other mem => List.mem_singleton.mp mem ▸ known) (Nat.le_refl _)
  exact ⟨order, written, fun other written' => written'.unique written⟩

end Program

end CellC
