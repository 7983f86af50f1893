import CellC.Proofs.Channels
import CellC.Proofs.Derivations

/-!
# A depth limit cuts off and never alters

What a request does while calls may not be nested deeper than some limit, it does under any greater
limit and under none. The limit can only end it early, and then what it printed is the beginning of
what it would have printed.

## Main definitions

* `Config.withLimit`: the same configuration with another limit
* `Action.CutsOff`: an action does the same as another one up to a fault at the limit

## Main results

* `Config.cutsOff_carryOut`: a request under a limit does the same as under a greater one
* `depth_limit_only_cuts_off`: the same for results, final states and output
-/

namespace CellC

variable {α β : Type} {n : Nat}

/-! ### Actions that are cut off -/

/-- The action does the same as the other one, unless it fails at the limit `n`; then it printed the
beginning of what the other one prints. -/
structure Action.CutsOff (n : Nat) (action other : Action α) : Prop where
  same : ∀ s result s', action.Returns s result s' → result ≠ .error (.tooDeep n) →
    other.Returns s result s'
  begins : ∀ s s' result s'', action.Returns s (.error (.tooDeep n)) s' →
    other.Returns s result s'' → s'.printer.GrowsTo s''.printer
  grows : ∀ s result s', other.Returns s result s' → s.printer.GrowsTo s'.printer

namespace Action.CutsOff

/-- Actions that only let the output grow are cut off nowhere. -/
theorem refl {action : Action α}
    (grows : ∀ s result s', action.Returns s result s' → s.printer.GrowsTo s'.printer) :
    CutsOff n action action where
  same _ _ _ returned _ := returned
  begins s s' result s'' failed returned := by
    obtain ⟨-, rfl⟩ := failed.unique returned
    exact .refl _
  grows := grows

theorem pure (a : α) : CutsOff n (pure a) (pure a) :=
  refl fun s result s' returned => by
    cases result <;> cases returned
    exact .refl _

/-- Nothing returns without levels. -/
theorem throw_exhausted : CutsOff n (throw .exhausted : Action α) (throw .exhausted) :=
  refl fun s result s' returned => by cases result <;> cases returned

protected theorem bind {action other : Action α} {next next' : α → Action β}
    (first : CutsOff n action other) (rest : ∀ a, CutsOff n (next a) (next' a)) :
    CutsOff n (action >>= next) (other >>= next') := by
  have follows {a : α} {t s'' : State} {result : Except Fault β} (returned : (next' a).Returns t
      result s'') : t.printer.GrowsTo s''.printer := (rest a).grows _ _ _ returned
  constructor
  · intro s result s' returned other
    rw [returns_bind_iff] at returned ⊢
    rcases returned with ⟨a, t, returned, following⟩ | ⟨fault, rfl, failed⟩
    · exact .inl ⟨a, t, first.same _ _ _ returned (by simp), (rest a).same _ _ _ following other⟩
    · exact .inr ⟨fault, rfl, first.same _ _ _ failed (by simpa using other)⟩
  · intro s s' result s'' failed returned
    rw [returns_bind_iff] at failed returned
    rcases failed with ⟨a, t, returned', failed⟩ | ⟨fault, same, failed⟩
    · -- The first action was not cut off, so the other one did the same.
      have returned' := first.same _ _ _ returned' (by simp)
      rcases returned with ⟨b, u, other, following⟩ | ⟨fault, -, other⟩
      · obtain ⟨same, rfl⟩ := returned'.unique other
        cases same
        exact (rest a).begins _ _ _ _ failed following
      · cases (returned'.unique other).1
    · cases same
      rcases returned with ⟨b, u, other, following⟩ | ⟨fault, -, other⟩
      · exact (first.begins _ _ _ _ failed other).trans (follows following)
      · exact first.begins _ _ _ _ failed other
  · intro s result s' returned
    rcases returns_bind_iff.mp returned with ⟨a, t, other, following⟩ | ⟨fault, -, failed⟩
    · exact (first.grows _ _ _ other).trans (follows following)
    · exact first.grows _ _ _ failed

end Action.CutsOff

/-- Scripts are cut off as their requests are. -/
theorem Script.Asks.cutsOff {carryOut carryOut' : (request : Request) → Action request.Answer}
    {P : Request → Prop} {script : Script α} (asks : script.Asks P)
    (requests : ∀ request, P request → (carryOut request).CutsOff n (carryOut' request)) :
    (script.run carryOut).CutsOff n (script.run carryOut') :=
  asks.related (R := Action.CutsOff n) .pure .bind requests

/-! ### Limits -/

namespace Config

/-- The same configuration with another limit on the depth of calls. -/
def withLimit (config : Config) (limit : Option Nat) : Config :=
  { config with depthLimit := limit }

variable {config : Config} {limit : Option Nat} {levels : Nat}

/-- No operation but the test of the depth asks for the limit. -/
theorem perform_withLimit {operation : Operation} (other : operation ≠ .checkDepth) :
    (config.withLimit limit).perform operation = config.perform operation := by
  cases operation with
  | checkDepth => exact absurd rfl other
  | _ => rfl

theorem grows_carryOut (config : Config) (levels : Nat) (request : Request) (s : State)
    (result : Except Fault request.Answer) (s' : State)
    (returned : (config.carryOut levels request).Returns s result s') :
    s.printer.GrowsTo s'.printer :=
  (advances_carryOut returned).printer

/-- An activation is cut off where its body is; popping the frame prints nothing. -/
theorem cutsOff_activation {params : List VarId} {values : List Value} {body : StmtId}
    (bodies : (((config.withLimit (some n)).bodyScript params values body).run
      ((config.withLimit (some n)).carryOut levels)).CutsOff n
        (((config.withLimit limit).bodyScript params values body).run
          ((config.withLimit limit).carryOut levels))) :
    ((config.withLimit (some n)).activation (CellC.exec (config.withLimit (some n)) levels) params
      values body).CutsOff n
        ((config.withLimit limit).activation (CellC.exec (config.withLimit limit) levels) params
          values body) where
  same s result s' returned other := by
    obtain ⟨outcome, u, frame, ended, found, rfl, rfl⟩ := body_of_returns_activation returned
    have ended' := bodies.same _ _ _ ended (by rintro rfl; exact other rfl)
    obtain ⟨frame', found', returned'⟩ := returns_activation ended'
    obtain ⟨rfl, -⟩ := List.cons.inj (found.symm.trans found')
    exact returned'
  begins s s' result s'' failed returned := by
    obtain ⟨outcome, u, frame, ended, -, rfl, same⟩ := body_of_returns_activation failed
    obtain ⟨outcome', v, frame', ended', -, rfl, -⟩ := body_of_returns_activation returned
    cases outcome with
    | ok _ => cases same
    | error fault =>
      cases same
      show u.printer.GrowsTo v.printer
      exact bodies.begins _ _ _ _ ended ended'
  grows s result s' returned := by
    obtain ⟨outcome, u, frame, ended, -, rfl, -⟩ := body_of_returns_activation returned
    show s.entered.printer.GrowsTo u.printer
    exact bodies.grows _ _ _ ended

/-- On any one level, calls and runs are cut off if operations and trees are. -/
theorem cutsOff_of_trees
    (trees : ∀ request : Request, request.rank ≤ 1 →
      ((config.withLimit (some n)).carryOut levels request).CutsOff n
        ((config.withLimit limit).carryOut levels request)) (request : Request) :
    ((config.withLimit (some n)).carryOut levels request).CutsOff n
      ((config.withLimit limit).carryOut levels request) := by
  -- A run invokes the entry point on its own level, so calls come first.
  have invoke (callee : FuncId) (values : List Value) (type : TypeId) :
      ((config.withLimit (some n)).carryOut levels (.invoke callee values type)).CutsOff n
        ((config.withLimit limit).carryOut levels (.invoke callee values type)) := by
    show ((config.withLimit (some n)).functionCall _ callee values type).CutsOff n
      ((config.withLimit limit).functionCall _ callee values type)
    rw [functionCall_eq_run, functionCall_eq_run]
    have admission := ((config.withLimit limit).asks_admissionScript callee values).cutsOff
      fun request rank => trees request (Nat.le_trans (Nat.le_of_eq rank) (Nat.zero_le 1))
    refine admission.bind fun (params, body) => ?_
    have bodies := ((config.withLimit limit).asks_bodyScript params values body).cutsOff trees
    exact (cutsOff_activation bodies).bind fun ret => .pure _
  cases request with
  | invoke callee values type => exact invoke callee values type
  | run =>
    show ((config.withLimit (some n)).run levels).CutsOff n ((config.withLimit limit).run levels)
    rw [run_eq_run, run_eq_run]
    refine (config.withLimit limit).asks_runScript.cutsOff fun request rank => ?_
    cases request with
    | invoke callee values type => exact invoke callee values type
    | run => exact absurd rank (by simp [Request.rank])
    | operate | evaluate | execute | iterate => exact trees _ (by simp [Request.rank])
  | operate | evaluate | execute | iterate => exact trees _ (by simp [Request.rank])

section Requests

variable (wider : ∀ m, limit = some m → n ≤ m)
include wider

/-- What is not too deep for a limit is not too deep for a greater one. -/
theorem permission_withLimit {depth : Nat}
    (permitted : (config.withLimit (some n)).permission depth ≠ .error (.tooDeep n)) :
    (config.withLimit limit).permission depth = (config.withLimit (some n)).permission depth := by
  have fits : ¬n < depth := fun deep => permitted (if_pos deep)
  have ok : (config.withLimit (some n)).permission depth = .ok () := if_neg fits
  rw [ok]
  cases given : limit with
  | none => rfl
  | some m =>
    have le := wider m given
    exact if_neg (by omega)

theorem cutsOff_checkDepth :
    (config.withLimit (some n)).checkDepth.CutsOff n (config.withLimit limit).checkDepth where
  same s result s' returned other := by
    obtain ⟨rfl, rfl⟩ := ((config.withLimit (some n)).returns_checkDepth s).unique returned
    rw [← permission_withLimit wider other]
    exact returns_checkDepth _ s
  begins s s' result s'' failed returned := by
    obtain ⟨-, rfl⟩ := (returns_checkDepth _ s).unique failed
    obtain ⟨-, rfl⟩ := (returns_checkDepth _ s).unique returned
    exact .refl _
  grows := grows_carryOut (config.withLimit limit) 0 (.operate .checkDepth)

theorem cutsOff_perform (operation : Operation) :
    ((config.withLimit (some n)).perform operation).CutsOff n
      ((config.withLimit limit).perform operation) := by
  by_cases check : operation = .checkDepth
  · subst check
    exact cutsOff_checkDepth wider
  · rw [perform_withLimit check, perform_withLimit check]
    exact .refl (grows_carryOut config 0 (.operate operation))

theorem cutsOff_carryOut (levels : Nat) (request : Request) :
    ((config.withLimit (some n)).carryOut levels request).CutsOff n
      ((config.withLimit limit).carryOut levels request) := by
  induction levels generalizing request with
  | zero =>
    refine cutsOff_of_trees (fun request rank => ?_) request
    cases request with
    | operate operation => exact cutsOff_perform wider operation
    | evaluate | execute | iterate => exact .throw_exhausted
    | invoke | run => exact absurd rank (by simp [Request.rank])
  | succ levels ih =>
    have scripts {α : Type} (script : Script α) :
        (script.run ((config.withLimit (some n)).carryOut levels)).CutsOff n
          (script.run ((config.withLimit limit).carryOut levels)) :=
      script.asks_true.cutsOff fun request _ => ih request
    refine cutsOff_of_trees (fun request rank => ?_) request
    cases request with
    | operate operation => exact cutsOff_perform wider operation
    | evaluate id =>
      show (CellC.eval _ _ id).CutsOff n (CellC.eval _ _ id)
      rw [eval_eq_run, eval_eq_run]
      exact scripts _
    | execute id =>
      show (CellC.exec _ _ id).CutsOff n (CellC.exec _ _ id)
      rw [exec_eq_run, exec_eq_run]
      exact scripts _
    | iterate cond body step =>
      show (CellC.loop _ _ cond body step).CutsOff n (CellC.loop _ _ cond body step)
      rw [loop_eq_run, loop_eq_run]
      exact scripts _
    | invoke | run => exact absurd rank (by simp [Request.rank])

end Requests

end Config

/-- Let a request end while no more than `n` calls may be active. If it does not fail for that
reason, then it ends likewise, with the same result in the same state, if more calls are permitted
or if their number is not limited. If it does, then it printed the beginning of what it prints with
more calls permitted, whenever it ends then. -/
theorem depth_limit_only_cuts_off (config : Config) {n : Nat} {limit : Option Nat}
    (wider : ∀ m, limit = some m → n ≤ m) {levels : Nat} {request : Request}
    {result : Except Fault request.Answer} {s s' : State}
    (ended : ((config.withLimit (some n)).carryOut levels request).Returns s result s') :
    (result ≠ .error (.tooDeep n) →
      ((config.withLimit limit).carryOut levels request).Returns s result s') ∧
    (result = .error (.tooDeep n) → ∀ levels' result' s'',
      ((config.withLimit limit).carryOut levels' request).Returns s result' s'' →
        ∃ printed more, s'.printer = s.printer.extended printed ∧
          s''.printer = s.printer.extended (printed ++ more)) := by
  refine ⟨(Config.cutsOff_carryOut wider levels request).same s result s' ended, ?_⟩
  rintro rfl levels' result' s'' ended'
  have failed := Config.carryOut_mono (Nat.le_max_left levels levels') request _ _ _ ended
  have returned := Config.carryOut_mono (Nat.le_max_right levels levels') request _ _ _ ended'
  obtain ⟨printed, before⟩ := (Config.advances_carryOut ended).printer
  obtain ⟨more, after⟩ :=
    (Config.cutsOff_carryOut wider (max levels levels') request).begins _ _ _ _ failed returned
  exact ⟨printed, more, before, by rw [after, before, Printer.extended_extended]⟩

/-- A function that prints its argument and counts down to zero from there by calling itself, and an
entry point that calls it with two. -/
def countDown : Config where
  program := {
    names := ⟨⟨#["", "PRINT", "f", "p", "main"]⟩⟩
    vars := #[⟨⟨3⟩, .int, none⟩]
    exprs := #[⟨.ident ⟨0⟩, .int⟩, ⟨.call ⟨0⟩ [⟨0⟩], .int⟩, ⟨.ident ⟨0⟩, .int⟩, ⟨.ident ⟨0⟩, .int⟩,
      ⟨.intLit 1, .int⟩, ⟨.binary .sub ⟨3⟩ ⟨4⟩, .int⟩, ⟨.call ⟨1⟩ [⟨5⟩], .int⟩, ⟨.intLit 2, .int⟩,
      ⟨.call ⟨1⟩ [⟨7⟩], .int⟩]
    stmts := #[.expr ⟨1⟩, .expr ⟨6⟩, .branch ⟨2⟩ ⟨1⟩ none, .compound [⟨0⟩, ⟨2⟩], .expr ⟨8⟩]
    funcs := #[⟨⟨1⟩, [], .int, none⟩, ⟨⟨2⟩, [⟨0⟩], .int, some ⟨3⟩⟩, ⟨⟨4⟩, [], .int, some ⟨4⟩⟩]
    topLevel := #[.function ⟨0⟩, .function ⟨1⟩, .function ⟨2⟩] }
  setup := {
    primitives := ({} : Std.TreeMap Nat Primitive).insert 0 .print
    entry := ⟨2⟩ }

/-- With two calls permitted only the first number is printed, and the others follow without a
limit. -/
theorem depth_limit_only_cuts_off_countDown : ∃ s' s'',
    ((countDown.withLimit (some 2)).run 20).Returns {} (.error (.tooDeep 2)) s' ∧
      ((countDown.withLimit none).run 20).Returns {} (.ok (.int 0)) s'' ∧
      s'.printer.lines = #["2"] ∧ s''.printer.lines = #["2", "1", "0"] ∧
      ∃ printed more, s'.printer = ({} : Printer).extended printed ∧
        s''.printer = ({} : Printer).extended (printed ++ more) := by
  have runs : ∃ s' s'',
      ((countDown.withLimit (some 2)).run 20).Returns {} (.error (.tooDeep 2)) s' ∧
        ((countDown.withLimit none).run 20).Returns {} (.ok (.int 0)) s'' ∧
        s'.printer.lines = #["2"] ∧ s''.printer.lines = #["2", "1", "0"] :=
    ⟨_, _, rfl, rfl, rfl, rfl⟩
  obtain ⟨s', s'', failed, returned, few, all⟩ := runs
  have wider : ∀ m, (none : Option Nat) = some m → 2 ≤ m := nofun
  have ended : ((countDown.withLimit (some 2)).carryOut 20 .run).Returns {}
    (.error (.tooDeep 2)) s' := failed
  have cut := depth_limit_only_cuts_off countDown wider ended
  exact ⟨s', s'', failed, returned, few, all, cut.2 rfl 20 _ s'' returned⟩

end CellC
