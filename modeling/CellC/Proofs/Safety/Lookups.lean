import CellC.Proofs.Confinement
import CellC.Proofs.Operations

/-!
# Look-ups

What a request looks up in the program is there, provided that the program is intact and that the
request itself refers to what is there. Everything a rule goes on to ask for comes from a node or a
declaration that has been found, and an intact program refers to nothing else.

## Main definitions

* `Request.Fits`: a request refers to what is there
* `Config.consulted`: all that a request by itself looks up

## Main results

* `Config.fits_of_contains`: every part of a request refers to what is there
* `Config.has_of_consulted`: everything that a request looks up is there
-/

namespace CellC

/-! ### Requests that refer to what is there -/

/-- The request refers to nothing but what the program has. -/
def Request.Fits (program : Program) (request : Request) : Prop :=
  ∀ reference ∈ request.references, program.Has reference

/-! ### Rules ask for what is there -/

theorem Program.grants_fits (program : Program) : Grants program.Has (Request.Fits program) where
  operate _ has := has
  evaluate id has reference member := by
    obtain rfl := List.mem_singleton.mp member
    exact has
  execute id has reference member := by
    obtain rfl := List.mem_singleton.mp member
    exact has
  invoke callee values type has reference member := by
    obtain rfl := List.mem_singleton.mp member
    exact has

theorem Request.fits_iterate {program : Program} {cond : ExprId} {body : StmtId}
    {step : Option ExprId} (has : program.Has (.expr cond)) (has' : program.Has (.stmt body))
    (has'' : ∀ expr, step = some expr → program.Has (.expr expr)) :
    (Request.iterate cond body step).Fits program := by
  intro reference member
  rcases List.mem_cons.mp member with rfl | member
  · exact has
  rcases List.mem_cons.mp member with rfl | member
  · exact has'
  · obtain ⟨expr, given, rfl⟩ := List.mem_map.mp member
    exact has'' expr (Option.mem_toList.mp given)

namespace Program.Intact

variable {program : Program} (intact : program.Intact)
include intact

theorem passedByExprs : program.PassedByExprs program.Has :=
  fun _ _ _ found _ => intact.has_of_expr found

theorem passedByVars : program.PassedByVars program.Has :=
  fun _ _ _ found _ => intact.has_of_var found

end Program.Intact

namespace Config

variable {config : Config} (intact : config.program.Intact)
  (leads : config.setup.Leads config.program)

/-! ### Parts -/

theorem body_of_admission {decl : FuncDecl} {values : List Value} {depth : Nat}
    {params : List VarId} {body : StmtId}
    (admitted : config.admission decl values depth = .ok (params, body)) :
    decl.body = some body ∧ decl.params = params := by
  unfold admission at admitted
  split at admitted
  · cases admitted
  · next start given =>
    split at admitted
    · cases permitted : config.permission depth with
      | ok _ =>
        rw [permitted] at admitted
        cases admitted
        exact ⟨given, rfl⟩
      | error fault =>
        rw [permitted] at admitted
        cases admitted
    · cases admitted

include intact in
/-- The parameters and the body of a call that is admitted are there. -/
theorem has_of_admitted {levels : Nat} {callee : FuncId} {values : List Value} {s t : State}
    {params : List VarId} {body : StmtId}
    (admitted : ((config.admissionScript callee values).run (config.carryOut levels)).Returns s
      (.ok (params, body)) t) :
    (∀ var ∈ params, config.program.Has (.var var)) ∧ config.program.Has (.stmt body) := by
  obtain ⟨-, decl, found, admission⟩ := returns_admission_iff.mp admitted
  obtain ⟨given, rfl⟩ := body_of_admission admission
  have has (reference : Reference) (member : reference ∈ decl.references) :
      config.program.Has reference := intact.has_of_func found member
  exact ⟨fun var member => has (.var var) (by simp [FuncDecl.references, member]),
    has (.stmt body) (by simp [FuncDecl.references, given])⟩

section Parts

include intact leads

/-- A request that refers to what is there asks for nothing else. -/
theorem Part.fits {whole part : Job} (h : config.Part whole part)
    (fits : whole.request.Fits config.program) : part.request.Fits config.program := by
  have grants := config.program.grants_fits
  cases h with
  | @evaluate _ id _ _ _ reaches =>
    have has : config.program.Has (.expr id) := fits _ List.mem_cons_self
    exact (confined_evaluationScript grants intact.passedByExprs (grants.single rfl has)
      fun _ found _ => intact.has_of_expr found).of_reaches reaches
  | @execute _ id _ _ _ reaches =>
    have has : config.program.Has (.stmt id) := fits _ List.mem_cons_self
    exact (confined_executionScript grants intact.passedByVars (grants.single rfl has)
      (fun _ found _ => intact.has_of_stmt found)
      fun _ _ _ _ _ _ => Request.fits_iterate).of_reaches reaches
  | @iterate _ cond body step _ _ _ reaches =>
    have has := fits (.expr cond) List.mem_cons_self
    have hasBody := fits (.stmt body) (by simp [Request.references])
    have hasStep (expr : ExprId) (given : step = some expr) : config.program.Has (.expr expr) :=
      fits (.expr expr) (by simp [Request.references, given])
    exact (confined_iterationScript grants has hasBody hasStep
      (Request.fits_iterate has hasBody hasStep)).of_reaches reaches
  | run reaches =>
    exact (confined_runScript grants intact.passedByVars leads.survey.globals
      leads.entry).of_reaches reaches
  | admission reaches =>
    exact (confined_admissionScript grants _
      (leads.implementation (fits _ List.mem_cons_self))).of_reaches reaches
  | body admitted reaches =>
    obtain ⟨hasParams, hasBody⟩ := has_of_admitted intact admitted
    exact (confined_bodyScript grants _ hasParams hasBody).of_reaches reaches

/-- Every part of a request, at any depth, refers to what is there if the request does. -/
theorem fits_of_contains {whole part : Job} (h : config.Contains whole part)
    (fits : whole.request.Fits config.program) : part.request.Fits config.program := by
  induction h with
  | refl => exact fits
  | tail _ step ih => exact Part.fits intact leads step ih

end Parts

/-! ### All look-ups -/

/-- The expression itself and what it refers to. -/
def nodeReferences (config : Config) (id : ExprId) : List Reference :=
  .expr id :: ((config.program.expr? id).map fun expr => expr.form.references).getD []

/-- Everything that is looked up for a request, apart from what its parts look up: expressions with
their operands, whose types matter, and under the parentheses of an assignment's target. Nothing is
left out: by `carryOut_withNodes` a request depends on nothing else in the program. -/
def consulted (config : Config) : Request → List Reference
  | .evaluate id =>
    config.nodeReferences id ++
      match (config.program.expr? id).map Expr.form with
      | some (.binary .assign target _) =>
        (config.program.underParens target).flatMap config.nodeReferences
      | _ => []
  | .execute id => .stmt id :: ((config.program.stmt? id).map Stmt.references).getD []
  | .invoke callee _ _ =>
    let func := config.setup.implementation config.program callee
    .func callee :: .func func :: ((config.program.func? func).map FuncDecl.references).getD []
  | .run => .func config.setup.entry :: config.setup.globals.map .var
  | .iterate cond body step => (Request.iterate cond body step).references
  | .operate operation => operation.references

/-- What an expression refers to is consulted for it. -/
theorem mem_nodeReferences {id : ExprId} {expr : Expr} (found : config.program.expr? id = some expr)
    {reference : Reference} (member : reference ∈ expr.form.references) :
    reference ∈ config.nodeReferences id := by
  unfold nodeReferences
  rw [found]
  exact List.mem_cons_of_mem _ member

include intact in
theorem has_of_nodeReferences {id : ExprId} (has : config.program.Has (.expr id))
    {reference : Reference} (member : reference ∈ config.nodeReferences id) :
    config.program.Has reference := by
  rcases List.mem_cons.mp member with rfl | member
  · exact has
  · cases found : config.program.expr? id with
    | none =>
      rw [found] at member
      cases member
    | some expr =>
      rw [found] at member
      exact intact.has_of_expr found member

include intact leads in
/-- Everything that is looked up for a request is there if the request refers to what is there. -/
theorem has_of_consulted {request : Request} (fits : request.Fits config.program)
    {reference : Reference} (member : reference ∈ config.consulted request) :
    config.program.Has reference := by
  cases request with
  | operate | iterate => exact fits reference member
  | evaluate id =>
    have has := fits (.expr id) List.mem_cons_self
    rcases List.mem_append.mp member with member | member
    · exact has_of_nodeReferences intact has member
    · split at member
      · next target value found =>
        obtain ⟨⟨form, type⟩, there, rfl⟩ := Option.map_eq_some_iff.mp found
        have hasTarget : config.program.Has (.expr target) :=
          intact.has_of_expr there List.mem_cons_self
        obtain ⟨inner, under, member⟩ := List.mem_flatMap.mp member
        exact has_of_nodeReferences intact (intact.has_underParens hasTarget inner under) member
      · cases member
  | execute id =>
    rcases List.mem_cons.mp member with rfl | member
    · exact fits (.stmt id) List.mem_cons_self
    · cases found : config.program.stmt? id with
      | none =>
        rw [found] at member
        cases member
      | some stmt =>
        rw [found] at member
        exact intact.has_of_stmt found member
  | invoke callee values type =>
    have has := fits (.func callee) List.mem_cons_self
    rcases List.mem_cons.mp member with rfl | member
    · exact has
    rcases List.mem_cons.mp member with rfl | member
    · exact leads.implementation has
    · cases found : config.program.func? (config.setup.implementation config.program callee) with
      | none =>
        rw [found] at member
        cases member
      | some decl =>
        rw [found] at member
        exact intact.has_of_func found member
  | run =>
    rcases List.mem_cons.mp member with rfl | member
    · exact leads.entry
    · obtain ⟨var, global, rfl⟩ := List.mem_map.mp member
      exact leads.survey.globals var global

end Config

end CellC
