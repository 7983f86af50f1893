import Std.Data.TreeMap.Lemmas
import CellC.Program.Setup
import CellC.Proofs.Building.Orderly

/-!
# Intact programs

What is looked up in an intact program leads to what is there: the parts of nodes, the expression
under any number of parentheses, and what a survey of the top-level declarations has noted.

## Main definitions

* `Program.underParens`: an expression and what is under its parentheses
* `Program.ParensDescend`: parentheses are around smaller numbers
* `Survey.Leads`, `Setup.Leads`: what was surveyed is there

## Main results

* `Program.ParensDescend.unparen_ne_paren`: no parentheses are left under all parentheses
* `Program.Intact.has_underParens`: what is under parentheses is there
* `Program.leads_of_setup`: what the setup of an intact program notes is there
-/

namespace CellC

/-! ### What is found in intact programs -/

namespace Program

/-- The expressions from the given one down to the one under at most `layers` parentheses. -/
def underParensWithin (program : Program) : Nat → ExprId → List ExprId
  | 0, id => [id]
  | layers + 1, id =>
    id :: match (program.expr? id).map Expr.form with
      | some (.paren inner) => program.underParensWithin layers inner
      | _ => []

/-- The expressions from the given one down to the one under all parentheses. -/
def underParens (program : Program) (id : ExprId) : List ExprId :=
  program.underParensWithin program.exprs.size id

/-! ### Under parentheses -/

/-- What is under all parentheses is among the expressions under them. -/
theorem unparen_mem (program : Program) (id : ExprId) :
    program.unparen id ∈ program.underParens id := by
  unfold unparen underParens
  generalize program.exprs.size = layers
  induction layers generalizing id with
  | zero => exact List.mem_singleton_self _
  | succ layers ih =>
    unfold unparenWithin underParensWithin
    generalize (program.expr? id).map Expr.form = form
    obtain _ | form := form
    · exact List.mem_singleton_self _
    cases form with
    | paren inner => exact List.mem_cons_of_mem _ (ih inner)
    | ident | intLit | charLit | strLit | sizeOf | unary | binary | index | call | cast =>
      exact List.mem_singleton_self _

section Parens

variable {program : Program} {H : Reference → Prop}
  (passed : ∀ {id inner type}, H (.expr id) → program.expr? id = some ⟨.paren inner, type⟩ →
    H (.expr inner))
include passed

/-- What holds of an expression and passes through parentheses holds of all that is under them. -/
theorem holds_underParens {id : ExprId} (holds : H (.expr id)) :
    ∀ inner ∈ program.underParens id, H (.expr inner) := by
  unfold underParens
  generalize program.exprs.size = layers
  induction layers generalizing id with
  | zero =>
    intro inner member
    obtain rfl := List.mem_singleton.mp member
    exact holds
  | succ layers ih =>
    intro inner member
    rcases List.mem_cons.mp member with rfl | member
    · exact holds
    · split at member
      · next below found =>
        obtain ⟨⟨form, type⟩, there, rfl⟩ := Option.map_eq_some_iff.mp found
        exact ih (passed holds there) inner member
      · cases member

theorem holds_unparen {id : ExprId} (holds : H (.expr id)) : H (.expr (program.unparen id)) :=
  holds_underParens passed holds _ (program.unparen_mem id)

end Parens

/-- Whatever is in parentheses has a smaller number than they have. -/
def ParensDescend (program : Program) : Prop :=
  ∀ id inner type, program.expr? id = some ⟨.paren inner, type⟩ → inner.index < id.index

/-- There are no parentheses left around what is under all parentheses. -/
theorem ParensDescend.unparen_ne_paren {program : Program} (descend : program.ParensDescend)
    (id inner : ExprId) :
    (program.expr? (program.unparen id)).map Expr.form ≠ some (.paren inner) := by
  have enough : id.index < program.exprs.size ∨ program.expr? id = none := by
    rcases Nat.lt_or_ge id.index program.exprs.size with lt | ge
    · exact .inl lt
    · exact .inr (Array.getElem?_eq_none ge)
  unfold unparen
  revert enough
  generalize program.exprs.size = layers
  intro enough
  induction layers generalizing id with
  | zero =>
    obtain lt | missing := enough
    · exact absurd lt (Nat.not_lt_zero _)
    · rw [unparenWithin, missing]
      rintro ⟨⟩
  | succ layers ih =>
    unfold unparenWithin
    split
    · next below found =>
      obtain ⟨⟨form, type⟩, there, rfl⟩ := Option.map_eq_some_iff.mp found
      obtain lt | missing := enough
      · exact ih below (.inl (by have := descend id below type there; omega))
      · rw [missing] at there
        cases there
    · next other => exact other inner

namespace Intact

variable {program : Program} (intact : program.Intact)
include intact

/-- What an expression of an intact program refers to is there. -/
theorem has_of_expr {id : ExprId} {expr : Expr} (found : program.expr? id = some expr)
    {reference : Reference} (member : reference ∈ expr.form.references) : program.Has reference :=
  (intact.exprs _ _ found reference member).1

theorem has_of_stmt {id : StmtId} {stmt : Stmt} (found : program.stmt? id = some stmt)
    {reference : Reference} (member : reference ∈ stmt.references) : program.Has reference :=
  (intact.stmts _ _ found reference member).1

theorem has_of_var {id : VarId} {decl : VarDecl} (found : program.var? id = some decl)
    {reference : Reference} (member : reference ∈ decl.references) : program.Has reference :=
  intact.vars _ _ found reference member

/-- What a function of an intact program refers to is there. -/
theorem has_of_func {id : FuncId} {decl : FuncDecl} (found : program.func? id = some decl)
    {reference : Reference} (member : reference ∈ decl.references) : program.Has reference :=
  intact.funcs _ _ found reference member

theorem has_underParens {id : ExprId} (has : program.Has (.expr id)) :
    ∀ inner ∈ program.underParens id, program.Has (.expr inner) :=
  holds_underParens (fun _ found => intact.has_of_expr found List.mem_cons_self) has

/-- In an intact program an expression in parentheses was there before them. -/
theorem parensDescend : program.ParensDescend :=
  fun _ _ _ found => (intact.exprs _ _ found (.expr _) List.mem_cons_self).2 _ rfl

end Intact

end Program

/-! ### What is surveyed -/

/-- What has been surveyed so far is there. -/
structure Survey.Leads (program : Program) (survey : Survey) : Prop where
  lastMain : ∀ func, survey.lastMain = some func → program.Has (.func func)
  globals : ∀ var ∈ survey.globals, program.Has (.var var)
  definitions : ∀ (name : Nat) (func : FuncId), survey.definitions[name]? = some func →
    program.Has (.func func)

namespace Survey.Leads

variable {program : Program} {survey : Survey} (leads : survey.Leads program)
include leads

theorem definition? {func definition : FuncId}
    (found : survey.definition? program func = some definition) :
    program.Has (.func definition) := by
  obtain ⟨decl, -, defined⟩ := Option.bind_eq_some_iff.mp found
  exact leads.definitions _ _ defined

/-- What is noted of a function that is there is there. -/
theorem addFunction {func : FuncId} (has : program.Has (.func func)) :
    (survey.addFunction program func).Leads program := by
  unfold Survey.addFunction
  cases found : program.func? func with
  | none => exact leads
  | some decl =>
    refine ⟨fun other noted => ?_, leads.globals, fun name other noted => ?_⟩
    · dsimp only at noted
      split at noted
      · cases noted
        exact has
      · exact leads.lastMain other noted
    · dsimp only at noted
      split at noted
      · rw [Std.TreeMap.getElem?_insert] at noted
        split at noted
        · cases noted
          exact has
        · exact leads.definitions name other noted
      · exact leads.definitions name other noted

theorem addVariable {var : VarId} (has : program.Has (.var var)) :
    (survey.addVariable var).Leads program := by
  unfold Survey.addVariable
  split
  · exact leads
  · refine { leads with globals := fun other member => ?_ }
    rcases List.mem_append.mp member with old | new
    · exact leads.globals other old
    · obtain rfl := List.mem_singleton.mp new
      exact has

/-- What a survey of declarations that are there has noted is there. -/
theorem foldl_add {decls : List TopLevel} (has : ∀ decl ∈ decls, program.Has decl.reference) :
    (decls.foldl (Survey.add program) survey).Leads program := by
  induction decls generalizing survey with
  | nil => exact leads
  | cons decl decls ih =>
    have first := has decl List.mem_cons_self
    refine ih ?_ fun other member => has other (List.mem_cons_of_mem _ member)
    cases decl with
    | function func => exact leads.addFunction first
    | «variable» var => exact leads.addVariable first

end Survey.Leads

/-- Every top-level declaration of an intact program is there. -/
theorem Program.Intact.has_of_topLevel {program : Program} (intact : program.Intact)
    {decl : TopLevel} (member : decl ∈ program.topLevel.toList) : program.Has decl.reference := by
  obtain ⟨i, lt, rfl⟩ := Array.getElem_of_mem (Array.mem_toList_iff.mp member)
  exact intact.topLevel i _ (Array.getElem?_eq_getElem lt)

/-- All that the survey of an intact program finds is there. -/
theorem Survey.leads_ofProgram {program : Program} (intact : program.Intact) :
    (Survey.ofProgram program).Leads program := by
  have empty : Survey.Leads program {} := by
    refine ⟨fun func noted => ?_, fun var member => ?_, fun name func noted => ?_⟩
    · cases noted
    · cases member
    · simp at noted
  exact empty.foldl_add fun decl member => intact.has_of_topLevel member

/-- The setup of a program: what was surveyed is there, and the entry point, too. -/
structure Setup.Leads (program : Program) (setup : Setup) : Prop where
  survey : setup.toSurvey.Leads program
  entry : program.Has (.func setup.entry)

/-- All that the setup of an intact program notes is there, the entry point included. -/
theorem Program.leads_of_setup {program : Program} {setup : Setup} (intact : program.Intact)
    (set : program.setup = .ok setup) : setup.Leads program := by
  have leads := Survey.leads_ofProgram intact
  unfold Program.setup at set
  dsimp only at set
  split at set
  · next func last =>
    cases set
    refine ⟨leads, ?_⟩
    cases defined : (Survey.ofProgram program).definition? program func with
    | none => exact leads.lastMain func last
    | some definition => exact leads.definition? defined
  · cases set

/-- The function whose body runs when another one is called is there. -/
theorem Setup.Leads.implementation {program : Program} {setup : Setup}
    (leads : setup.Leads program) {callee : FuncId} (has : program.Has (.func callee)) :
    program.Has (.func (setup.implementation program callee)) := by
  unfold Setup.implementation
  split
  · exact has
  · cases defined : setup.definition? program callee with
    | none => exact has
    | some definition => exact leads.survey.definition? defined

end CellC
