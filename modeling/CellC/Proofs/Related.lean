import CellC.Proofs.Returns

/-!
# Related actions

Two actions are related when related states lead them to matching results: to related values, to the
same fault, or to the same other halt. Relatedness is kept by the ways in which actions are put
together, so it passes from the steps of the machine to whole runs.

## Main definitions

* `Action.Matching`: results that match
* `Action.Related`: actions that related states lead to matching results

## Main results

* `Action.Related.bind`: actions in sequence
* `Config.matching_activation`, `Config.related_functionCall`: activations and calls of functions
-/

namespace CellC

variable {α β γ δ : Type}

namespace Action

/-- Results that match: related values in states related by `S`, the same fault in states related by
`E`, or the same halt for another reason. -/
inductive Matching (S : State → State → Prop) (E : Fault → State → State → Prop)
    (V : α → β → Prop) :
    EStateM.Result Halt State α → EStateM.Result Halt State β → Prop
  | ok {a b s t} : V a b → S s t → Matching S E V (.ok a s) (.ok b t)
  | fault {fault s t} : E fault s t →
      Matching S E V (.error (.fault fault) s) (.error (.fault fault) t)
  | dangling {s t} : Matching S E V (.error .dangling s) (.error .dangling t)
  | exhausted {s t} : Matching S E V (.error .exhausted s) (.error .exhausted t)

/-- States related by `S` lead the two actions to matching results. -/
def Related (S : State → State → Prop) (E : Fault → State → State → Prop) (V : α → β → Prop)
    (action : Action α) (other : Action β) : Prop :=
  ∀ ⦃s t⦄, S s t → Matching S E V (action.run s) (other.run t)

namespace Related

variable {S : State → State → Prop} {E : Fault → State → State → Prop} {V : α → β → Prop}
  {W : γ → δ → Prop}

/-- If one of two related actions returns, so does the other. -/
theorem returns {action : Action α} {other : Action β} (related : Related S E V action other)
    {s t s' : State} (start : S s t) {result : Except Fault α}
    (run : action.Returns s result s') :
    ∃ result' t', other.Returns t result' t' ∧
      match result, result' with
      | .ok a, .ok b => V a b ∧ S s' t'
      | .error fault, .error fault' => fault = fault' ∧ E fault s' t'
      | _, _ => False := by
  have matching := related start
  unfold Returns at run
  rw [run] at matching
  cases result with
  | ok a =>
    generalize hother : other.run t = answer at matching
    cases matching with
    | ok values states => exact ⟨.ok _, _, hother, values, states⟩
  | error fault =>
    generalize hother : other.run t = answer at matching
    cases matching with
    | fault states => exact ⟨.error fault, _, hother, rfl, states⟩

/-- Less may be said about the values. -/
theorem weaken {V' : α → β → Prop} {action : Action α} {other : Action β}
    (related : Related S E V action other) (values : ∀ a b, V a b → V' a b) :
    Related S E V' action other := by
  intro s t start
  have matching := related start
  generalize action.run s = result at matching
  generalize other.run t = result' at matching
  cases matching with
  | ok same states => exact .ok (values _ _ same) states
  | fault states => exact .fault states
  | dangling => exact .dangling
  | exhausted => exact .exhausted

protected theorem pure {a : α} {b : β} (values : V a b) :
    Related S E V (Pure.pure a) (Pure.pure b) :=
  fun _ _ start => .ok values start

protected theorem bind {action : Action α} {other : Action β} {next : α → Action γ}
    {next' : β → Action δ} (first : Related S E V action other)
    (rest : ∀ a b, V a b → Related S E W (next a) (next' b)) :
    Related S E W (action >>= next) (other >>= next') := by
  intro s t start
  -- Either both first actions yield values and the second ones follow, or both sides stop there.
  rw [EStateM.run_bind, EStateM.run_bind]
  have matching := first start
  generalize action.run s = result at matching
  generalize other.run t = result' at matching
  cases matching with
  | ok values states => exact rest _ _ values states
  | fault states => exact .fault states
  | dangling => exact .dangling
  | exhausted => exact .exhausted

/-- Actions in sequence of which the first yields the same value on both sides. -/
theorem bind_eq {action other : Action α} {next : α → Action γ} {next' : α → Action δ}
    (first : Related S E (· = ·) action other)
    (rest : ∀ a, Related S E W (next a) (next' a)) :
    Related S E W (action >>= next) (other >>= next') :=
  first.bind fun a _ same => same ▸ rest a

theorem fail {fault : Fault} (faulty : ∀ s t, S s t → E fault s t) :
    Related S E V (Action.fail fault) (Action.fail fault) :=
  fun s t start => .fault (faulty s t start)

theorem throw_exhausted : Related S E V (throw .exhausted) (throw .exhausted) :=
  fun _ _ _ => .exhausted

theorem ofOption (option : Option α) :
    Related S E (· = ·) (Action.ofOption option) (Action.ofOption option) := by
  intro s t start
  cases option with
  | none => exact .dangling
  | some a => exact .ok rfl start

theorem ofExcept {outcome : Except Fault α}
    (faulty : ∀ fault, outcome = .error fault → ∀ s t, S s t → E fault s t) :
    Related S E (· = ·) (Action.ofExcept outcome) (Action.ofExcept outcome) := by
  intro s t start
  cases outcome with
  | ok a => exact .ok rfl start
  | error fault => exact .fault (faulty fault rfl s t start)

protected theorem discard {action : Action α} {other : Action β}
    (related : Related S E V action other) :
    Related S E (· = ·) (discard action : Action Unit) (discard other : Action Unit) := by
  intro s t start
  rw [run_discard, run_discard]
  have matching := related start
  generalize action.run s = result at matching
  generalize other.run t = result' at matching
  cases matching with
  | ok _ states => exact .ok rfl states
  | fault states => exact .fault states
  | dangling => exact .dangling
  | exhausted => exact .exhausted

/-- Changes of the state that keep it related. -/
protected theorem modify {f g : State → State} (kept : ∀ s t, S s t → S (f s) (g t)) :
    Related S E (· = ·) (modify f : Action Unit) (modify g : Action Unit) :=
  fun s t start => .ok rfl (kept s t start)

end Related

end Action

/-- Statements that ended alike, with related values. -/
inductive Completion.Related (V : Value → Value → Prop) : Completion → Completion → Prop
  | completed : Completion.Related V .completed .completed
  | returned {v w : Value} : V v w → Completion.Related V (.returned v) (.returned w)

/-- Statements that ended alike with equal values ended in one way. -/
theorem Completion.related_eq : Completion.Related (· = ·) = Eq := by
  funext c d
  refine propext ⟨fun ended => ?_, fun same => same ▸ ?_⟩
  · cases ended with
    | completed => rfl
    | returned values => rw [values]
  · cases c with
    | completed => exact .completed
    | returned value => exact .returned rfl

namespace Config

/-- Activations match if their bodies are related between states related by `I`, if pushing a
frame leads there, and if popping a frame leads out, after a value as well as after a fault. -/
theorem matching_activation {I O : State → State → Prop}
    {E F : Fault → State → State → Prop} {V : Value → Value → Prop} {config config' : Config}
    {exec exec' : StmtId → Action Completion} {params : List VarId} {values values' : List Value}
    {body : StmtId} {s t : State} (enter : I s.entered t.entered)
    (bodies : Action.Related I F (· = ·) (config.boundBody exec params values body)
      (config'.boundBody exec' params values' body))
    (leave : ∀ s t, I s t →
      Action.Matching O E V (Action.popFrame.run s) (Action.popFrame.run t))
    (abandon : ∀ fault s t, F fault s t →
      Action.Matching (E fault) E (fun _ _ => True) (Action.popFrame.run s)
        (Action.popFrame.run t)) :
    Action.Matching O E V ((config.activation exec params values body).run s)
      ((config'.activation exec' params values' body).run t) := by
  rw [run_activation, run_activation]
  have matching := bodies enter
  generalize (config.boundBody exec params values body).run s.entered = result at matching
  generalize (config'.boundBody exec' params values' body).run t.entered = result' at matching
  cases matching with
  | ok _ states => exact leave _ _ states
  | dangling => exact .dangling
  | exhausted => exact .exhausted
  | @fault fault s' t' states =>
    have popped := abandon fault s' t' states
    dsimp only
    generalize Action.popFrame.run s' = left at popped
    generalize Action.popFrame.run t' = right at popped
    cases popped with
    | ok _ states => exact .fault states
    | fault states => exact .fault states
    | dangling => exact .dangling
    | exhausted => exact .exhausted

theorem related_checkArity {S : State → State → Prop} {E : Fault → State → State → Prop}
    (faulty : ∀ fault s t, fault ≠ .noCall → S s t → E fault s t) (name : String)
    (expected got : Nat) :
    Action.Related S E (· = ·) (checkArity name expected got) (checkArity name expected got) := by
  unfold checkArity
  split
  · exact .pure rfl
  · exact .fail fun s t start => faulty _ s t (by simp) start

/-- Parameters are bound alike to arguments with the same cells. -/
theorem related_bindParams {S : State → State → Prop} {E : Fault → State → State → Prop}
    {config config' : Config} (program : config'.program = config.program)
    (bound : ∀ var value, Action.Related S E (· = ·) (Action.bind var value)
      (Action.bind var value))
    (params : List VarId) {values values' : List Value}
    (cells : values.map Value.cell = values'.map Value.cell) :
    Action.Related S E (· = ·) (config.bindParams params values)
      (config'.bindParams params values') := by
  induction params generalizing values values' with
  | nil => exact .pure rfl
  | cons var vars ih =>
    match values, values', cells with
    | [], [], _ => exact .pure rfl
    | v :: vs, w :: ws, cells =>
      obtain ⟨cell, rest⟩ := List.cons.inj cells
      unfold Config.bindParams Config.types
      rw [program, cell]
      refine (Action.Related.ofOption _).bind_eq fun decl => ?_
      exact (bound var _).bind_eq fun _ => ih rest

theorem related_boundBody {S : State → State → Prop} {E : Fault → State → State → Prop}
    {V : Value → Value → Prop} {config config' : Config}
    (program : config'.program = config.program)
    (bound : ∀ var value, Action.Related S E (· = ·) (Action.bind var value)
      (Action.bind var value))
    {exec exec' : StmtId → Action Completion} (params : List VarId) {values values' : List Value}
    (cells : values.map Value.cell = values'.map Value.cell) {body : StmtId}
    (bodies : Action.Related S E (Completion.Related V) (exec body) (exec' body)) :
    Action.Related S E (· = ·) (config.boundBody exec params values body)
      (config'.boundBody exec' params values' body) :=
  (related_bindParams program bound params cells).bind_eq fun _ => bodies.discard

/-- Calls with the same cells as arguments are related if the activations are that they lead to. -/
theorem related_functionCall {S : State → State → Prop} {E : Fault → State → State → Prop}
    {V : Value → Value → Prop} {config config' : Config}
    (program : config'.program = config.program) (setup : config'.setup = config.setup)
    (refl : ∀ value, V value value) (cell : ∀ {v w}, V v w → v.cell = w.cell)
    (faulty : ∀ fault s t, fault ≠ .noCall → S s t → E fault s t)
    (depth : Action.Related S E (· = ·) config.checkDepth config'.checkDepth)
    {exec exec' : StmtId → Action Completion} {values values' : List Value}
    (activation : ∀ params body, Action.Related S E V (config.activation exec params values body)
      (config'.activation exec' params values' body))
    (callee : FuncId) (type : TypeId) (cells : values.map Value.cell = values'.map Value.cell) :
    Action.Related S E V (config.functionCall exec callee values type)
      (config'.functionCall exec' callee values' type) := by
  have lengths : values'.length = values.length := by
    rw [← List.length_map Value.cell, ← cells, List.length_map]
  unfold functionCall types
  rw [program, setup, lengths]
  refine (Action.Related.ofOption _).bind_eq fun decl => ?_
  cases decl.body with
  | none => exact .fail fun s t start => faulty _ s t (by simp) start
  | some body =>
    refine (related_checkArity faulty _ _ _).bind_eq fun _ => depth.bind_eq fun _ => ?_
    refine (activation decl.params body).bind fun v w ret => ?_
    rw [cell ret]
    exact .pure (refl _)

end Config

end CellC
