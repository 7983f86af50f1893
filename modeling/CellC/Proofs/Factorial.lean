import CellC.Proofs.DepthLimit
import CellC.Proofs.PointerArithmetic
import CellC.Proofs.Replies
import CellC.Proofs.Resolution
import Mathlib.Data.Nat.Factorial.Basic

/-!
# A recursive program

The factorial of a number, computed by a function that calls itself:

    int fact(int n) { if (n == 0) return 1; return n * fact(n - 1); }
    int main() { return fact(5); }

Every activation evaluates the same expressions and binds the same parameter, each in its own frame.
So the variable that is read before a nested call is multiplied with the result of the call, and
nothing is left of the nested activations. The product wraps around the 64-bit space. As the calls
are nested as deeply as the number says, a limit on their nesting is met or not from the start.

## Main definitions

* `factorialSteps`, `factorialProgram`: the program

## Main results

* `Factorial.ends_invoke`: the call of the function, by induction on the number
* `recursive_factorial`: the call with and without a limit
-/

namespace CellC

open Nat (factorial_succ)

/-- The steps of the program. The primitives are declared first. -/
def factorialSteps : List Construction :=
  [.type (.pointer .int), .prototype "GET" [] .int, .prototype "PRINT" [.int] .void,
    .prototype "MALLOC" [.int] ⟨3⟩, .prototype "FREE" [⟨3⟩] .void,
    .function "fact" .int, .param ⟨4⟩ "n" .int,
    .expr (.ident ⟨3⟩), .expr (.intLit 0), .expr (.binary .eq ⟨0⟩ ⟨1⟩), .expr (.intLit 1),
    .stmt (.return (some ⟨3⟩)), .stmt (.branch ⟨2⟩ ⟨0⟩ none),
    .expr (.ident ⟨3⟩), .expr (.intLit 1), .expr (.binary .sub ⟨4⟩ ⟨5⟩), .expr (.call ⟨4⟩ [⟨6⟩]),
    .expr (.ident ⟨3⟩), .expr (.binary .mul ⟨8⟩ ⟨7⟩), .stmt (.return (some ⟨9⟩)),
    .stmt (.compound [⟨1⟩, ⟨2⟩]), .body ⟨4⟩ ⟨3⟩,
    .expr (.intLit 5), .expr (.call ⟨4⟩ [⟨10⟩]), .stmt (.return (some ⟨11⟩)),
    .function "main" .int, .stmt (.compound [⟨4⟩]), .body ⟨5⟩ ⟨5⟩]

/-- The program. -/
def factorialProgram : Program where
  names := ⟨⟨#["", "GET", "PRINT", "arg0", "MALLOC", "FREE", "fact", "n", "main"]⟩⟩
  types := ⟨⟨#[.int, .char, .void, .pointer .int]⟩⟩
  vars := #[⟨⟨3⟩, .int, none⟩, ⟨⟨3⟩, .int, none⟩, ⟨⟨3⟩, ⟨3⟩, none⟩, ⟨⟨7⟩, .int, none⟩]
  exprs := #[⟨.ident ⟨3⟩, .int⟩, ⟨.intLit 0, .int⟩, ⟨.binary .eq ⟨0⟩ ⟨1⟩, .int⟩, ⟨.intLit 1, .int⟩,
    ⟨.ident ⟨3⟩, .int⟩, ⟨.intLit 1, .int⟩, ⟨.binary .sub ⟨4⟩ ⟨5⟩, .int⟩, ⟨.call ⟨4⟩ [⟨6⟩], .int⟩,
    ⟨.ident ⟨3⟩, .int⟩, ⟨.binary .mul ⟨8⟩ ⟨7⟩, .int⟩, ⟨.intLit 5, .int⟩, ⟨.call ⟨4⟩ [⟨10⟩], .int⟩]
  stmts := #[.return (some ⟨3⟩), .branch ⟨2⟩ ⟨0⟩ none, .return (some ⟨9⟩), .compound [⟨1⟩, ⟨2⟩],
    .return (some ⟨11⟩), .compound [⟨4⟩]]
  funcs := #[⟨⟨1⟩, [], .int, none⟩, ⟨⟨2⟩, [⟨0⟩], .void, none⟩, ⟨⟨4⟩, [⟨1⟩], ⟨3⟩, none⟩,
    ⟨⟨5⟩, [⟨2⟩], .void, none⟩, ⟨⟨6⟩, [⟨3⟩], .int, some ⟨3⟩⟩, ⟨⟨8⟩, [], .int, some ⟨5⟩⟩]
  topLevel := #[.function ⟨0⟩, .function ⟨1⟩, .function ⟨2⟩, .function ⟨3⟩, .function ⟨4⟩,
    .function ⟨5⟩]

theorem ofConstructions_factorialSteps :
    (Program.ofConstructions factorialSteps).2 = factorialProgram := by decide +kernel

theorem built_factorialProgram : factorialProgram.Built :=
  ofConstructions_factorialSteps ▸ Program.built_ofConstructions (by decide +kernel)

/-! ### Numbers -/

theorem ofNat_pred (k : Nat) : Int64.ofNat (k + 1) - 1 = Int64.ofNat k := by
  rw [Int64.ofNat_add]
  exact Int64.add_sub_cancel _ _

/-- No number in the range of a cell but zero wraps to zero. -/
theorem ofNat_succ_ne_zero {k : Nat} (fits : k + 1 ≤ maxCell) : Int64.ofNat (k + 1) ≠ 0 := by
  intro zero
  have same := Int64.toInt_ofNat_of_lt (n := k + 1) (by unfold maxCell at fits; omega)
  rw [zero] at same
  simp at same
  omega

theorem ofNat_factorial_succ (k : Nat) :
    Int64.ofNat (k + 1) * Int64.ofNat k.factorial = Int64.ofNat (k + 1).factorial := by
  rw [factorial_succ, Int64.ofNat_mul]

/-! ### The function -/

namespace Factorial

variable {config : Config} (program : config.program = factorialProgram) {s : State} {k : Nat}
include program

theorem view_int (cell : Cell) : config.types.view .int cell = .int cell := by
  have built : config.program.Built := program ▸ built_factorialProgram
  exact built.view_int cell

theorem expr_eq {id : ExprId} {expr : Expr} (found : factorialProgram.expr? id = some expr) :
    config.program.expr? id = some expr := by
  rwa [program]

theorem stmt_eq {id : StmtId} {form : Stmt} (found : factorialProgram.stmt? id = some form) :
    config.program.stmt? id = some form := by
  rwa [program]

section Body

variable (bound : config.visibleValue? s.stack ⟨3⟩ = some (.int (Int64.ofNat k)))
include bound

theorem yields_test : config.Yields ⟨2⟩ s (.int (cellOfBool (Int64.ofNat k = 0))) := by
  have first : config.Yields ⟨0⟩ s (.int (Int64.ofNat k)) := .ident (expr_eq program rfl) bound
  have second : config.Yields ⟨1⟩ s (.int 0) := .intLit (expr_eq program rfl)
  rw [← view_int program]
  exact .binary (expr_eq program rfl) rfl rfl first second (by rw [program]; rfl)

/-- The argument of the nested call. -/
theorem yields_pred : config.Yields ⟨6⟩ s (.int (Int64.ofNat k - 1)) := by
  have first : config.Yields ⟨4⟩ s (.int (Int64.ofNat k)) := .ident (expr_eq program rfl) bound
  have second : config.Yields ⟨5⟩ s (.int 1) := .intLit (expr_eq program rfl)
  rw [← view_int program]
  exact .binary (expr_eq program rfl) rfl rfl first second (by
    unfold Config.scaled Config.types
    rw [program]
    rfl)

/-- What is returned is the variable, as it was before the nested call, times the result of that
call. If the nested call goes wrong, so does the product. -/
theorem endsLike_product {result : Except Fault Unit} {cell : Cell}
    (nested : config.EndsLike (.evaluate ⟨7⟩) s (result.map fun _ => .int cell) s) :
    config.EndsLike (.evaluate ⟨9⟩) s (result.map fun _ => .int (Int64.ofNat k * cell)) s := by
  have before : config.Yields ⟨8⟩ s (.int (Int64.ofNat k)) := .ident (expr_eq program rfl) bound
  have found : config.program.expr? ⟨9⟩ = some ⟨.binary .mul ⟨8⟩ ⟨7⟩, .int⟩ :=
    expr_eq program rfl
  cases result with
  | ok _ =>
    have product : config.Yields ⟨9⟩ s (config.types.view .int (Int64.ofNat k * cell)) :=
      .binary found rfl rfl before nested rfl
    rwa [view_int program] at product
  | error fault => exact .binary_error found rfl rfl before nested

end Body

/-- Where the parameter is zero, the body returns one. -/
theorem replies_zero (bound : config.visibleValue? s.stack ⟨3⟩ = some (.int 0)) :
    config.Replies ⟨3⟩ s (.ok (.int 1)) := by
  have test : config.Yields ⟨2⟩ s (.int 1) := yields_test (k := 0) program bound
  have one : config.Yields ⟨3⟩ s (.int 1) := .intLit (expr_eq program rfl)
  have base : config.Replies ⟨0⟩ s (.ok (.int 1)) := .return (stmt_eq program rfl) one
  have guard : config.Replies ⟨1⟩ s (.ok (.int 1)) := .branch (stmt_eq program rfl) test rfl base
  have code : config.program.stmt? ⟨3⟩ = some (.compound ([] ++ ⟨1⟩ :: [⟨2⟩])) :=
    stmt_eq program rfl
  exact .compound code (by simp) guard

/-- Where the parameter is not zero, the body returns its product with the result of the nested
call. -/
theorem replies_succ (fits : k + 1 ≤ maxCell)
    (bound : config.visibleValue? s.stack ⟨3⟩ = some (.int (Int64.ofNat (k + 1))))
    (ordinary : config.setup.primitive? ⟨4⟩ = none) {result : Except Fault Unit} {cell : Cell}
    (nested : config.EndsLike (.invoke ⟨4⟩ [.int (Int64.ofNat k)] .int) s
      (result.map fun _ => .int cell) s) :
    config.Replies ⟨3⟩ s (result.map fun _ => .int (Int64.ofNat (k + 1) * cell)) := by
  have test : config.Yields ⟨2⟩ s (.int 0) := by
    have test := yields_test program bound
    rwa [decide_eq_false (ofNat_succ_ne_zero fits)] at test
  have guard : config.Passes ⟨1⟩ s := Config.passes_branch (stmt_eq program rfl) test rfl
  have argument : config.Yields ⟨6⟩ s (.int (Int64.ofNat k)) := by
    have argument := yields_pred program bound
    rwa [ofNat_pred] at argument
  have call : config.EndsLike (.evaluate ⟨7⟩) s (result.map fun _ => .int cell) s :=
    .call (expr_eq program rfl) ordinary (.cons argument .nil) nested
  have product : config.Replies ⟨2⟩ s (result.map fun _ => .int (Int64.ofNat (k + 1) * cell)) :=
    .return (stmt_eq program rfl) (endsLike_product program bound call)
  have code : config.program.stmt? ⟨3⟩ = some (.compound ([⟨1⟩] ++ ⟨2⟩ :: [])) :=
    stmt_eq program rfl
  exact .compound code (by simpa using guard) product

section Calls

variable (surveyed : factorialProgram.setup = .ok config.setup) {v : Value}

theorem visibleValue?_within :
    config.visibleValue? (s.within (config.bound [⟨3⟩] [v] {})).stack ⟨3⟩ = some (.int v.cell) := by
  have type : config.program.varType ⟨3⟩ = .int := by
    rw [program]
    rfl
  apply Config.visibleValue?_of_top
  show (Frame.bind {} ⟨3⟩ (config.types.view (config.program.varType ⟨3⟩) v.cell)).value? ⟨3⟩ = _
  rw [type, view_int program, Frame.value?_bind, if_pos rfl]

include surveyed

omit program in
theorem ordinary : config.setup.primitive? ⟨4⟩ = none := by
  have resolves := built_factorialProgram.listed.resolves surveyed
  cases declared : config.setup.primitive? ⟨4⟩ with
  | none => rfl
  | some primitive =>
    have name := (resolves.primitive ⟨4⟩ (by decide +kernel) primitive).mp declared
    cases primitive <;> exact absurd name (by decide +kernel)

theorem implementation_eq : config.setup.implementation config.program ⟨4⟩ = ⟨4⟩ := by
  have resolves := built_factorialProgram.listed.resolves surveyed
  rw [program]
  exact resolves.implementation_of_hasBody (by decide +kernel) (by decide +kernel)

/-- The call ends as the body does, unless it is refused; then it would be so at any greater
depth. -/
theorem endsLike_invoke {cell : Cell} (replies : config.permission s.stack.depth = .ok () →
      config.Replies ⟨3⟩ (s.within (config.bound [⟨3⟩] [v] {}))
        ((config.permission (s.stack.depth + k)).map fun _ => .int cell)) :
    config.EndsLike (.invoke ⟨4⟩ [v] .int) s
      ((config.permission (s.stack.depth + k)).map fun _ => .int cell) s := by
  have found : config.program.func? (config.setup.implementation config.program ⟨4⟩) =
      some ⟨⟨6⟩, [⟨3⟩], .int, some ⟨3⟩⟩ := by
    rw [implementation_eq program surveyed, program]
    rfl
  have declared : ∀ var ∈ [(⟨3⟩ : VarId)], ∃ decl, config.program.var? var = some decl := by
    rw [program]
    simp [factorialProgram, Program.var?]
  cases start : config.permission s.stack.depth with
  | error fault =>
    rw [Config.permission_of_le start (Nat.le_add_right _ k)]
    exact ⟨s, Config.ends_invoke_refused found rfl rfl start, .refl s⟩
  | ok _ =>
    have ended := (replies start).invoke .int found rfl rfl declared start
    cases outcome : config.permission (s.stack.depth + k) with
    | ok _ =>
      rw [outcome] at ended
      rwa [← view_int program cell]
    | error fault =>
      rw [outcome] at ended
      exact ended

/-- The call of the function nests as many calls as the number says. It yields the factorial if that
many are permitted, and is refused otherwise; either way nothing is left of it. -/
theorem ends_invoke (fits : k ≤ maxCell) (argument : v.cell = Int64.ofNat k) :
    config.EndsLike (.invoke ⟨4⟩ [v] .int) s
      ((config.permission (s.stack.depth + k)).map fun _ => .int (Int64.ofNat k.factorial)) s := by
  induction k generalizing s v with
  | zero =>
    apply endsLike_invoke program surveyed
    intro start
    have bound := visibleValue?_within program (s := s) (v := v)
    rw [argument] at bound
    rw [Nat.add_zero, start]
    exact replies_zero program bound
  | succ k ih =>
    apply endsLike_invoke program surveyed
    intro _
    have bound := visibleValue?_within program (s := s) (v := v)
    rw [argument] at bound
    have nested := ih (s := s.within (config.bound [⟨3⟩] [v] {})) (v := .int (Int64.ofNat k))
      (Nat.le_of_succ_le fits) rfl
    have depth : (s.within (config.bound [⟨3⟩] [v] {})).stack.depth + k =
        s.stack.depth + (k + 1) := by
      show s.stack.depth + 1 + k = _
      omega
    rw [depth] at nested
    rw [← ofNat_factorial_succ]
    exact replies_succ program fits bound (ordinary surveyed) nested

end Calls

end Factorial

/-- **Recursive programs compute through frames.** Let a number in the range of a cell be the
argument of a call of the function, in any state. Without a limit on nested calls the call yields
the factorial of the number, wrapped around the 64-bit space. With a limit, and with no call active
before, it does so exactly if one call more than the number says is permitted, and is refused at the
limit otherwise. In any case memory, output, input, variables and the depth of the stack are as they
were. -/
theorem recursive_factorial {config : Config}
    (program : config.program = (Program.ofConstructions factorialSteps).2)
    (surveyed : config.program.setup = .ok config.setup) {n : Nat} (fits : n ≤ maxCell)
    (s : State) :
    (config.depthLimit = none →
      config.CallsEnd ⟨4⟩ [Int64.ofNat n] s (.ok (.int (Int64.ofNat n.factorial)))) ∧
    ∀ limit, config.depthLimit = some limit → s.stack.calls = [] →
      config.CallsEnd ⟨4⟩ [Int64.ofNat n] s
        (if n + 1 ≤ limit then .ok (.int (Int64.ofNat n.factorial))
          else .error (.tooDeep limit)) := by
  rw [ofConstructions_factorialSteps] at program
  rw [program] at surveyed
  have built : config.program.Built := program ▸ built_factorialProgram
  have calls : config.CallsEnd ⟨4⟩ [Int64.ofNat n] s
      ((config.permission (s.stack.depth + n)).map fun _ => .int (Int64.ofNat n.factorial)) := by
    refine .of_invoked built.typesFit (Factorial.ordinary surveyed) fun {values} cells => ?_
    obtain ⟨v, rfl⟩ := List.length_eq_one_iff.mp (by simpa using congrArg List.length cells)
    have type : config.program.resultType ⟨4⟩ = .int := by
      rw [program]
      rfl
    rw [type]
    exact Factorial.ends_invoke program surveyed fits (List.cons.inj cells).1
  constructor
  · intro unlimited
    have permitted : config.permission (s.stack.depth + n) = .ok () := by
      unfold Config.permission
      rw [unlimited]
    rwa [permitted] at calls
  · intro limit limited alone
    have depth : s.stack.depth + n = n + 1 := by
      rw [CallStack.depth, alone, List.length_nil, Nat.zero_add, Nat.add_comm]
    rw [Config.permission_eq limited, depth] at calls
    by_cases enough : n + 1 ≤ limit
    · rw [if_neg (Nat.not_lt.mpr enough)] at calls
      rwa [if_pos enough]
    · rw [if_pos (Nat.not_le.mp enough)] at calls
      rwa [if_neg enough]

/-- From the start, `fact(5)` yields 120 without a limit and with six calls permitted, but not with
five. The factorial of 21 does not fit a cell. -/
theorem recursive_factorial_five : ∃ setup, factorialProgram.setup = .ok setup ∧
    (∃ t, Config.Evaluates ⟨factorialProgram, setup, none, true⟩ ⟨11⟩ {} (.ok (.int 120)) t) ∧
    (∃ t, Config.Evaluates ⟨factorialProgram, setup, some 6, true⟩ ⟨11⟩ {} (.ok (.int 120)) t) ∧
    (∃ t, Config.Evaluates ⟨factorialProgram, setup, some 5, true⟩ ⟨11⟩ {}
      (.error (.tooDeep 5)) t) ∧
    ∃ t, Config.Ends ⟨factorialProgram, setup, none, true⟩ (.invoke ⟨4⟩ [.int 21] .int) {}
      (.ok (.int (-4249290049419214848))) t ∧ State.Unaffected {} t := by
  cases surveyed : factorialProgram.setup with
  | error fault =>
    have unnamed :=
      ((Program.Listed.setup_eq_error_iff fault).mp surveyed).2 ⟨5⟩ (by decide +kernel)
    exact absurd (by decide +kernel) unnamed
  | ok setup =>
    let config (limit : Option Nat) : Config := ⟨factorialProgram, setup, limit, true⟩
    have same := ofConstructions_factorialSteps.symm
    have free : (config none).CallsEnd ⟨4⟩ [5] {} (.ok (.int (Int64.ofNat (Nat.factorial 5)))) :=
      (recursive_factorial same surveyed (by decide) {}).1 rfl
    have six : (config (some 6)).CallsEnd ⟨4⟩ [5] {} (if 5 + 1 ≤ 6 then _ else _) :=
      (recursive_factorial same surveyed (by decide) {}).2 6 rfl rfl
    have five : (config (some 5)).CallsEnd ⟨4⟩ [5] {} (if 5 + 1 ≤ 5 then _ else _) :=
      (recursive_factorial same surveyed (by decide) {}).2 5 rfl rfl
    have wraps : (config none).CallsEnd ⟨4⟩ [21] {}
        (.ok (.int (Int64.ofNat (Nat.factorial 21)))) :=
      (recursive_factorial same surveyed (by decide) {}).1 rfl
    have small : Int64.ofNat (Nat.factorial 5) = 120 := by decide +kernel
    have large : Int64.ofNat (Nat.factorial 21) = -4249290049419214848 := by decide +kernel
    rw [small] at free
    rw [if_pos (by decide), small] at six
    rw [if_neg (by decide)] at five
    rw [large] at wraps
    have literal (limit : Option Nat) :
        List.Forall₂ ((config limit).Yields · {}) [⟨10⟩] [.int 5] :=
      .cons (.intLit (show factorialProgram.expr? ⟨10⟩ = some ⟨.intLit 5, .int⟩ from rfl)) .nil
    have found : factorialProgram.expr? ⟨11⟩ = some ⟨.call ⟨4⟩ [⟨10⟩], .int⟩ := rfl
    obtain ⟨t, evaluated, -⟩ := free.called found (literal none) rfl
    obtain ⟨t', evaluated', -⟩ := six.called found (literal (some 6)) rfl
    obtain ⟨u, refused, -⟩ := five.called found (literal (some 5)) rfl
    obtain ⟨u', invoked, same'⟩ : (config none).EndsLike (.invoke ⟨4⟩ [.int 21] .int) {} _ {} :=
      wraps.invoked rfl
    exact ⟨setup, rfl, ⟨t, evaluated⟩, ⟨t', evaluated'⟩, ⟨u, refused⟩, ⟨u', invoked, same'⟩⟩

end CellC
