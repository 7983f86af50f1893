import CellC.Proofs.Typing.Layers

/-!
# References

Whatever a program is made of refers to other parts by number. A step of building the program is
orderly if it refers only to numbers that earlier steps handed out, and so to what is there.

## Main definitions

* `Each`: every entry of a numbered list has a property, which may depend on its number
* `Reference`: a number together with what it is a number of
* `Program.Has`: a reference leads to something in the program
* `Construction.references`: what a step of building a program refers to
* `Construction.Orderly`: a step refers to nothing but what is there

## Main results

* `Construction.Orderly.fits`, `Construction.Orderly.typesFit`: what the program is to have for an
  orderly step
-/

namespace CellC

variable {α β : Type}

/-! ### Numbered entries -/

/-- Every entry has the property, which may depend on its number. -/
def Each (entries : Array α) (P : Nat → α → Prop) : Prop :=
  ∀ i entry, entries[i]? = some entry → P i entry

namespace Each

variable {entries : Array α} {P Q : Nat → α → Prop}

theorem empty (P : Nat → α → Prop) : Each #[] P := by
  intro i entry found
  simp at found

theorem mono (h : Each entries P) (weaker : ∀ i entry, P i entry → Q i entry) : Each entries Q :=
  fun i entry found => weaker i entry (h i entry found)

/-- A list has the property everywhere if the new entry has it in its place. -/
theorem push (h : Each entries P) {new : α} (fresh : P entries.size new) :
    Each (entries.push new) P := by
  intro i entry found
  rw [Array.getElem?_push] at found
  split at found
  · next last =>
    cases found
    exact last ▸ fresh
  · exact h i entry found

/-- A change of one entry that keeps the property keeps it everywhere. -/
theorem modify (h : Each entries P) {k : Nat} {f : α → α} (kept : ∀ i entry, P i entry →
    P i (f entry)) : Each (entries.modify k f) P := by
  intro i entry found
  rw [Array.getElem?_modify] at found
  split at found
  · obtain ⟨old, there, rfl⟩ := Option.map_eq_some_iff.mp found
    exact kept i old (h i old there)
  · exact h i entry found

end Each

theorem lt_size_push (entries : Array α) (new : α) : entries.size < (entries.push new).size := by
  rw [Array.size_push]
  exact Nat.lt_succ_self _

/-! ### References -/

/-- A number together with what it is a number of. -/
inductive Reference
  | expr (id : ExprId)
  | stmt (id : StmtId)
  | var (id : VarId)
  | func (id : FuncId)
  | type (id : TypeId)
  | name (name : Name)
deriving DecidableEq

/-- The program has handed out the number. -/
def Program.Has (program : Program) : Reference → Prop
  | .expr id => id.index < program.exprs.size
  | .stmt id => id.index < program.stmts.size
  | .var id => id.index < program.vars.size
  | .func id => id.index < program.funcs.size
  | .type id => program.types.Has id
  | .name name => name.index < program.names.spellings.size

instance (program : Program) : (reference : Reference) → Decidable (program.Has reference)
  | .expr _ | .stmt _ | .var _ | .func _ | .name _ => inferInstanceAs (Decidable (_ < _))
  | .type _ => inferInstanceAs (Decidable (program.types.Has _))

/-- What a layer of a type refers to. -/
def TypeLayer.references (layer : TypeLayer) : List Reference :=
  layer.element?.toList.map .type

/-- What an expression of the form refers to. -/
def ExprForm.references : ExprForm → List Reference
  | ident var => [.var var]
  | intLit _ | charLit _ => []
  | strLit name => [.name name]
  | paren inner => [.expr inner]
  | sizeOf (.type ty) => [.type ty]
  | sizeOf (.expr operand) => [.expr operand]
  | unary _ operand => [.expr operand]
  | binary _ left right => [.expr left, .expr right]
  | index base position => [.expr base, .expr position]
  | call callee args => .func callee :: args.map .expr
  | cast _ ty operand => [.type ty, .expr operand]

/-- What a statement refers to. -/
def Stmt.references : Stmt → List Reference
  | decl vars => vars.map .var
  | expr e => [.expr e]
  | branch cond yes no => .expr cond :: .stmt yes :: no.toList.map .stmt
  | .while cond body => [.expr cond, .stmt body]
  | .for start cond step body =>
    start.toList.map .stmt ++ cond.toList.map .expr ++ step.toList.map .expr ++ [.stmt body]
  | .return value => value.toList.map .expr
  | compound stmts => stmts.map .stmt
  | .break | .continue => []

/-- What the declaration of a variable refers to. -/
def VarDecl.references (decl : VarDecl) : List Reference :=
  .type decl.type :: decl.init.toList.map .expr

/-- What the declaration of a function refers to. -/
def FuncDecl.references (decl : FuncDecl) : List Reference :=
  .type decl.ret :: decl.params.map .var ++ decl.body.toList.map .stmt

/-- What a top-level declaration refers to. -/
def TopLevel.reference : TopLevel → Reference
  | function func => .func func
  | .variable v => .var v

/-- What a step of building a program refers to. -/
def Construction.references : Construction → List Reference
  | type layer => layer.references
  | function _ ret => [.type ret]
  | prototype _ params ret => .type ret :: params.map .type
  | param func _ ty => [.func func, .type ty]
  | body func start => [.func func, .stmt start]
  | var _ ty init | global _ ty init => .type ty :: init.toList.map .expr
  | expr form => form.references
  | string _ => []
  | stmt form => form.references

/-- A step refers to nothing but what the program has handed out. -/
def Construction.Orderly (program : Program) (step : Construction) : Prop :=
  ∀ reference ∈ step.references, program.Has reference

instance (program : Program) (step : Construction) : Decidable (step.Orderly program) :=
  inferInstanceAs (Decidable (∀ _ ∈ _, _))

/-- Where a step refers to nothing but what there is, it can be carried out. -/
theorem Construction.Orderly.fits {program : Program} {step : Construction}
    (orderly : step.Orderly program) : step.Fits program := by
  cases step with
  | expr form =>
    have has (reference : Reference) (member : reference ∈ form.references) :
        program.Has reference := orderly reference member
    cases form with
    | ident | paren | unary | index | call => exact has _ List.mem_cons_self
    | binary op left right =>
      exact ⟨has (.expr left) List.mem_cons_self, has (.expr right) (by simp [ExprForm.references])⟩
    | intLit | charLit | strLit | sizeOf | cast => trivial
  | param | body => exact orderly _ List.mem_cons_self
  | type | function | prototype | var | global | string | stmt => trivial

/-- An orderly step names types that are there. -/
theorem Construction.Orderly.typesFit {program : Program} {step : Construction}
    (orderly : step.Orderly program) : step.TypesFit program.types := by
  cases step with
  | type layer =>
    refine TypeLayer.fits_iff.mpr fun type element => ?_
    exact orderly (.type type) (by simp [references, TypeLayer.references, element])
  | function | var | global => exact orderly _ List.mem_cons_self
  | prototype name params ret =>
    refine ⟨fun type member => ?_, orderly _ List.mem_cons_self⟩
    exact orderly (.type type) (List.mem_cons_of_mem _ (List.mem_map_of_mem member))
  | param func name type => exact orderly (.type type) (by simp [references])
  | expr form =>
    cases form with
    | cast => exact orderly _ List.mem_cons_self
    | sizeOf operand =>
      cases operand with
      | type type => exact orderly _ List.mem_cons_self
      | expr operand => trivial
    | ident | intLit | charLit | strLit | paren | unary | binary | index | call => trivial
  | body | string | stmt => trivial

end CellC
