import CellC.Proofs.Building.Numbering
import CellC.Proofs.Typing.Static

/-!
# Consistency

At every moment of building a program, what has been added so far fits together: trees lead
downwards, and the static type of an expression is the one that its parts and the declarations it
refers to give it. Nothing that is added later changes any of this.

## Main definitions

* `Program.Consistent`: trees lead downwards, and types follow from what they are types of
* `Program.FixedIn`: what has been handed out means the same in a later program

## Main results

* `Program.consistent_and_fixed`: programs in the making are consistent and stay as they are
-/

namespace CellC

namespace Program

/-- References lead to what is there, trees lead downwards, and static types follow from the types
of parts and declarations and are known. -/
structure Consistent (program : Program) : Prop where
  intact : program.Intact
  known : program.TypesKnown
  ident : ∀ {id var type}, program.expr? id = some ⟨.ident var, type⟩ → type = program.varType var
  paren : ∀ {id inner type}, program.expr? id = some ⟨.paren inner, type⟩ →
    type = program.exprType inner
  assign : ∀ {id target value type}, program.expr? id = some ⟨.binary .assign target value, type⟩ →
    type = program.exprType target
  subscript : ∀ {id base position type}, program.expr? id = some ⟨.index base position, type⟩ →
    type = (program.types.element? (program.exprType base)).getD .int
  deref : ∀ {id operand type}, program.expr? id = some ⟨.unary .deref operand, type⟩ →
    type = (program.types.element? (program.exprType operand)).getD .int
  call : ∀ {id callee args type}, program.expr? id = some ⟨.call callee args, type⟩ →
    type = program.resultType callee
  comparison : ∀ {id op left right type}, program.expr? id = some ⟨.binary op left right, type⟩ →
    op.compares = true → type = .int

/-- What the program has handed out is the same in a later program, and so are the layer, the width
and the text of every type. -/
structure FixedIn (program later : Program) : Prop where
  keeps : program.Keeps later
  layer : ∀ type, program.types.Has type → later.types.layer type = program.types.layer type
  width : ∀ type, program.types.Has type → later.types.width type = program.types.width type
  text : ∀ type, program.types.Has type → later.types.text type = program.types.text type

theorem Built.type_of_comparison {program : Program} (built : program.Built) {id : ExprId}
    {op : BinaryOp} {left right : ExprId} {type : TypeId}
    (found : program.expr? id = some ⟨.binary op left right, type⟩)
    (compares : op.compares = true) : type = .int := by
  obtain ⟨before, origin⟩ := built.origin found (Nat.zero_le _) (by simp)
  rw [origin.type]
  cases op with
  | lt | gt | le | ge | eq | ne => rfl
  | add | sub | mul | div | rem | bitAnd | bitOr | logicalAnd | logicalOr | assign =>
    cases compares

/-- An orderly program is consistent. -/
theorem Orderly.consistent {program : Program} (orderly : program.Orderly) :
    program.Consistent where
  intact := orderly.intact
  known := orderly.grounded.typesKnown
  ident := orderly.grounded.built.typesFit.ident
  paren := orderly.grounded.built.typesFit.paren
  assign := orderly.grounded.built.typesFit.assign
  subscript found := (orderly.grounded.base_of_index found).2
  deref found := orderly.grounded.type_of_deref found
  call := orderly.grounded.built.typesFit.call
  comparison := orderly.grounded.built.type_of_comparison

/-- Orderly steps change nothing that an orderly program has handed out. -/
theorem Orderly.fixedIn {program later : Program} (orderly : program.Orderly)
    (leads : program.OrderlyTo later) : program.FixedIn later := by
  obtain ⟨-, grows⟩ := leads.growsTo orderly.grounded.typesKnown
  have structured (type : TypeId) (has : program.types.Has type) :
      later.types.resolve type = program.types.resolve type :=
    grows.resolve_eq orderly.grounded.descends has
  exact {
    keeps := leads.keeps
    layer := fun type has => grows.layer_eq has
    width := fun type has => congrArg CType.width (structured type has)
    text := fun type has => congrArg CType.text (structured type has) }

/-- Orderly steps hand out consecutive numbers of what is there then. The program that they build is
consistent, and further orderly steps change nothing that it has handed out. -/
theorem consistent_and_fixed {steps further : List Construction}
    (orderly : StepsOrderly {} (steps ++ further)) :
    (∀ list, (handedOut {} steps).filterMap (Reference.position? list) =
      List.range ((after {} steps).count list)) ∧
    (∀ reference ∈ handedOut {} steps, (after {} steps).Has reference) ∧
    (after {} steps).Consistent ∧ (after {} steps).FixedIn (after {} (steps ++ further)) := by
  obtain ⟨first, rest⟩ := stepsOrderly_append.mp orderly
  have built : (after {} steps).Orderly := .mapM first
  have leads : (after {} steps).OrderlyTo (after {} (steps ++ further)) := by
    rw [after_append]
    exact .mapM rest
  exact ⟨fun list => handedOut_eq_range list steps, fun _ member => has_of_handedOut member,
    built.consistent, built.fixedIn leads⟩

/-- The steps that build `int row[2]; int below(int n);` and the expression `row[n] < *row`. -/
def comparisonSteps : List Construction :=
  [.type (.array .int 2), .global "row" ⟨3⟩ none, .function "below" .int, .param ⟨0⟩ "n" .int,
    .expr (.ident ⟨0⟩), .expr (.ident ⟨1⟩), .expr (.index ⟨0⟩ ⟨1⟩), .expr (.unary .deref ⟨0⟩),
    .expr (.binary .lt ⟨2⟩ ⟨3⟩)]

/-- The steps that add the expression `row + n`, whose type is new, and a body for `below`. -/
def bodySteps : List Construction :=
  [.expr (.binary .add ⟨0⟩ ⟨1⟩), .stmt (.return (some ⟨4⟩)), .body ⟨0⟩ ⟨0⟩]

theorem consistent_and_fixed_comparison :
    StepsOrderly {} (comparisonSteps ++ bodySteps) ∧
    (handedOut {} comparisonSteps).filterMap (Reference.position? .exprs) = [0, 1, 2, 3, 4] ∧
    (after {} comparisonSteps).Consistent ∧
    (after {} comparisonSteps).FixedIn (after {} (comparisonSteps ++ bodySteps)) ∧
    (after {} (comparisonSteps ++ bodySteps)).types.layers.size =
      (after {} comparisonSteps).types.layers.size + 1 := by
  have orderly : StepsOrderly {} (comparisonSteps ++ bodySteps) := by decide +kernel
  obtain ⟨numbered, -, consistent, fixed⟩ := consistent_and_fixed orderly
  have count : (after {} comparisonSteps).count .exprs = 5 := by decide +kernel
  refine ⟨orderly, ?_, consistent, fixed, by decide +kernel⟩
  rw [numbered, count]
  decide

end Program

end CellC
