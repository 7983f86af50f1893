import CellC.Proofs.Parts

/-!
# The operations of a request

A request comes down to single operations of the machine, one after the other. Listing them, each
with the state in which it is performed, gives an account of the request: what happened to the
machine from its beginning to its end is what these operations did, in their order.

## Main definitions

* `Config.operations`: the operations performed in the course of a request
* `Config.Account`: what holds of the states before and after operations, by what each one does

## Main results

* `Config.mem_operations_iff`: the operations of a request are those among its parts
* `Config.Account.carryOut`: an account holds of every request that ends
-/

namespace CellC

variable {α β : Type}

/-- Operations of the machine, each with the state in which it is performed. -/
abbrev Operations := List (Operation × State)

/-! ### Lists of operations -/

namespace Script

variable (carryOut : (request : Request) → Action request.Answer)
  (taken : Request → State → Operations)

/-- The operations of a script that is carried out, given those of its requests. -/
def operations : Script α → State → Operations
  | done _, _ => []
  | ask request next, s =>
    taken request s ++
      match (carryOut request).run s with
      | .ok answer t => (next answer).operations t
      | .error _ _ => []

variable {carryOut taken} {s t : State} {op : Operation × State}

theorem Asks.operations_eq {taken' : Request → State → Operations} {script : Script α}
    (asks : script.Asks fun request => taken request = taken' request) (s : State) :
    script.operations carryOut taken s = script.operations carryOut taken' s := by
  induction script generalizing s with
  | done a => rfl
  | ask request next ih =>
    rw [operations, operations, asks.1]
    split
    · rw [ih _ (asks.2 _)]
    · rfl

/-- The operations of a script are those of the requests that it comes to. -/
theorem mem_operations_iff {script : Script α} :
    op ∈ script.operations carryOut taken s ↔
      ∃ request t, script.Reaches carryOut s request t ∧ op ∈ taken request t := by
  constructor
  · intro member
    induction script generalizing s with
    | done a => cases member
    | ask request next ih =>
      rw [operations] at member
      obtain first | later := List.mem_append.mp member
      · exact ⟨request, s, .here, first⟩
      · split at later
        · next answer t answered =>
          obtain ⟨request', u, reaches, member⟩ := ih answer later
          exact ⟨request', u, .later answered reaches, member⟩
        · cases later
  · rintro ⟨request, t, reaches, member⟩
    induction reaches with
    | here =>
      rw [operations]
      exact List.mem_append_left _ member
    | later answered _ ih =>
      rw [operations]
      refine List.mem_append_right _ ?_
      unfold Action.Returns at answered
      rw [answered]
      exact ih member

end Script

namespace Config

variable (config : Config)

/-- The operations of calls, given those of evaluations, executions and iterations. -/
def callOperations (levels : Nat) (trees : Request → State → Operations) :
    Request → State → Operations
  | .invoke callee values _, s =>
    (config.admissionScript callee values).operations (config.carryOut levels) trees s ++
      match ((config.admissionScript callee values).run (config.carryOut levels)).run s with
      | .ok (params, body) t =>
        (config.bodyScript params values body).operations (config.carryOut levels) trees t.entered
      | .error _ _ => []
  | request, s => trees request s

/-- The operations of any request, given those of evaluations, executions and iterations. -/
def requestOperations (levels : Nat) (trees : Request → State → Operations) :
    Request → State → Operations
  | .run, s =>
    config.runScript.operations (config.carryOut levels) (config.callOperations levels trees) s
  | request, s => config.callOperations levels trees request s

/-- The operations of evaluations, executions and iterations within a number of levels. -/
def treeOperations : Nat → Request → State → Operations
  | _, .operate operation, s => [(operation, s)]
  | levels + 1, .evaluate id, s =>
    (config.evaluationScript id).operations (config.carryOut levels)
      (config.requestOperations levels (treeOperations levels)) s
  | levels + 1, .execute id, s =>
    (config.executionScript id).operations (config.carryOut levels)
      (config.requestOperations levels (treeOperations levels)) s
  | levels + 1, .iterate cond body step, s =>
    (iterationScript cond body step).operations (config.carryOut levels)
      (config.requestOperations levels (treeOperations levels)) s
  | _, _, _ => []

/-- The operations that are performed in the course of a request, in their order and each with the
state in which it is performed. -/
def operations (levels : Nat) : Request → State → Operations :=
  config.requestOperations levels (config.treeOperations levels)

end Config

/-! ### Requests that ask for requests -/

/-- A property of requests on levels holds of all of them if it holds of operations and where no
level is left, and of any other request if it holds of what that may ask for. -/
theorem Request.induction {motive : Nat → Request → Prop}
    (operate : ∀ levels operation, motive levels (.operate operation))
    (exhausted : ∀ request : Request, request.rank = 1 → motive 0 request)
    (evaluate : ∀ levels id, (∀ asked, motive levels asked) → motive (levels + 1) (.evaluate id))
    (execute : ∀ levels id, (∀ asked, motive levels asked) → motive (levels + 1) (.execute id))
    (iterate : ∀ levels cond body step, (∀ asked, motive levels asked) →
      motive (levels + 1) (.iterate cond body step))
    (invoke : ∀ levels callee values type,
      (∀ asked : Request, asked.rank ≤ 1 → motive levels asked) →
      motive levels (.invoke callee values type))
    (run : ∀ levels, (∀ asked : Request, asked.rank ≤ 2 → motive levels asked) →
      motive levels .run)
    (levels : Nat) (request : Request) : motive levels request := by
  -- On any one level trees come first, then calls and last of all runs.
  have whole (levels : Nat) (trees : ∀ asked : Request, asked.rank ≤ 1 → motive levels asked)
      (request : Request) : motive levels request := by
    have calls (asked : Request) (low : asked.rank ≤ 2) : motive levels asked := by
      cases asked with
      | operate operation => exact operate levels operation
      | evaluate | execute | iterate => exact trees _ (Nat.le_refl 1)
      | invoke callee values type => exact invoke levels callee values type trees
      | run => exact absurd low (Nat.not_succ_le_self 2)
    cases request with
    | run => exact run levels calls
    | operate | evaluate | execute | iterate | invoke => exact calls _ (by simp [Request.rank])
  induction levels generalizing request with
  | zero =>
    refine whole 0 (fun asked low => ?_) request
    cases asked with
    | operate operation => exact operate 0 operation
    | evaluate | execute | iterate => exact exhausted _ rfl
    | invoke | run => exact absurd low (by simp [Request.rank])
  | succ levels ih =>
    refine whole (levels + 1) (fun asked low => ?_) request
    cases asked with
    | operate operation => exact operate _ operation
    | evaluate id => exact evaluate levels id ih
    | execute id => exact execute levels id ih
    | iterate cond body step => exact iterate levels cond body step ih
    | invoke | run => exact absurd low (by simp [Request.rank])

namespace Config

variable {config : Config} {levels : Nat} {s t : State} {request : Request}

/-! ### The operations of each kind of request -/

theorem operations_operate (operation : Operation) :
    config.operations levels (.operate operation) s = [(operation, s)] := by
  cases levels <;> rfl

/-- Without a level left nothing is performed. -/
theorem operations_exhausted (tree : request.rank = 1) : config.operations 0 request s = [] := by
  cases request with
  | evaluate | execute | iterate => rfl
  | operate | invoke | run => cases tree

theorem treeOperations_of_rank_le_one (low : request.rank ≤ 1) :
    config.treeOperations levels request = config.operations levels request := by
  cases request with
  | operate | evaluate | execute | iterate => rfl
  | invoke | run => exact absurd low (by simp [Request.rank])

theorem callOperations_of_rank_le_two (low : request.rank ≤ 2) :
    config.callOperations levels (config.treeOperations levels) request =
      config.operations levels request := by
  cases request with
  | operate | evaluate | execute | iterate | invoke => rfl
  | run => exact absurd low (by simp [Request.rank])

theorem operations_invoke (callee : FuncId) (values : List Value) (type : TypeId) :
    config.operations levels (.invoke callee values type) s =
      (config.admissionScript callee values).operations (config.carryOut levels)
          (config.operations levels) s ++
        match ((config.admissionScript callee values).run (config.carryOut levels)).run s with
        | .ok (params, body) t =>
          (config.bodyScript params values body).operations (config.carryOut levels)
            (config.operations levels) t.entered
        | .error _ _ => [] := by
  have trees {α : Type} {script : Script α} (low : script.Asks (·.rank ≤ 1)) (s : State) :
      script.operations (config.carryOut levels) (config.treeOperations levels) s =
        script.operations (config.carryOut levels) (config.operations levels) s :=
    (low.mono fun _ => treeOperations_of_rank_le_one).operations_eq s
  have admission := trees ((config.asks_admissionScript callee values).mono fun request rank =>
    Nat.le_trans (Nat.le_of_eq rank) (Nat.zero_le 1)) s
  unfold operations requestOperations callOperations
  dsimp only
  rw [admission]
  split
  · rw [trees (config.asks_bodyScript _ values _)]
    rfl
  · rfl

theorem operations_run :
    config.operations levels .run s =
      config.runScript.operations (config.carryOut levels) (config.operations levels) s :=
  (config.asks_runScript.mono fun _ => callOperations_of_rank_le_two).operations_eq s

/-! ### Operations are parts -/

/-- The operations of a part are among those of the whole. -/
theorem Part.operations_subset {whole part : Job} (h : config.Part whole part) :
    config.operations part.levels part.request part.state ⊆
      config.operations whole.levels whole.request whole.state := by
  intro op member
  cases h with
  | evaluate reaches | execute reaches | iterate reaches =>
    exact Script.mem_operations_iff.mpr ⟨_, _, reaches, member⟩
  | run reaches =>
    rw [operations_run]
    exact Script.mem_operations_iff.mpr ⟨_, _, reaches, member⟩
  | admission reaches =>
    rw [operations_invoke]
    exact List.mem_append_left _ (Script.mem_operations_iff.mpr ⟨_, _, reaches, member⟩)
  | body admitted reaches =>
    unfold Action.Returns at admitted
    rw [operations_invoke, admitted]
    exact List.mem_append_right _ (Script.mem_operations_iff.mpr ⟨_, _, reaches, member⟩)

theorem Contains.operations_subset {whole part : Job} (h : config.Contains whole part) :
    config.operations part.levels part.request part.state ⊆
      config.operations whole.levels whole.request whole.state := by
  induction h with
  | refl => exact List.Subset.refl _
  | tail _ step ih => exact List.Subset.trans step.operations_subset ih

/-- The operations of a request are those among its parts, at any depth. -/
theorem mem_operations_iff {operation : Operation} :
    (operation, t) ∈ config.operations levels request s ↔
      ∃ levels', config.Contains ⟨levels, request, s⟩ ⟨levels', .operate operation, t⟩ := by
  constructor
  · intro member
    induction levels, request using Request.induction generalizing s with
    | operate levels other =>
      rw [operations_operate] at member
      cases List.mem_singleton.mp member
      exact ⟨levels, .refl⟩
    | exhausted request tree =>
      rw [operations_exhausted tree] at member
      cases member
    | evaluate levels id ih =>
      obtain ⟨asked, u, reaches, member⟩ := Script.mem_operations_iff.mp member
      obtain ⟨levels', contains⟩ := ih asked member
      exact ⟨levels', .head (.evaluate reaches) contains⟩
    | execute levels id ih =>
      obtain ⟨asked, u, reaches, member⟩ := Script.mem_operations_iff.mp member
      obtain ⟨levels', contains⟩ := ih asked member
      exact ⟨levels', .head (.execute reaches) contains⟩
    | iterate levels cond body step ih =>
      obtain ⟨asked, u, reaches, member⟩ := Script.mem_operations_iff.mp member
      obtain ⟨levels', contains⟩ := ih asked member
      exact ⟨levels', .head (.iterate reaches) contains⟩
    | run levels ih =>
      rw [operations_run] at member
      obtain ⟨asked, u, reaches, member⟩ := Script.mem_operations_iff.mp member
      obtain ⟨levels', contains⟩ := ih asked (config.asks_runScript.of_reaches reaches) member
      exact ⟨levels', .head (.run reaches) contains⟩
    | invoke levels callee values type ih =>
      rw [operations_invoke] at member
      obtain before | within := List.mem_append.mp member
      · obtain ⟨asked, u, reaches, member⟩ := Script.mem_operations_iff.mp before
        have rank := (config.asks_admissionScript callee values).of_reaches reaches
        obtain ⟨levels', contains⟩ := ih asked (rank ▸ Nat.zero_le 1) member
        exact ⟨levels', .head (.admission reaches) contains⟩
      · split at within
        · next params body u admitted =>
          obtain ⟨asked, v, reaches, member⟩ := Script.mem_operations_iff.mp within
          have low := (config.asks_bodyScript params values body).of_reaches reaches
          obtain ⟨levels', contains⟩ := ih asked low member
          exact ⟨levels', .head (.body admitted reaches) contains⟩
        · cases within
  · rintro ⟨levels', contains⟩
    apply contains.operations_subset
    rw [operations_operate]
    exact List.mem_singleton_self _

/-! ### Accounts -/

/-- What the operations from one state to another say of the two is put together from what every
single operation says, and holds across the frame of a call. -/
structure Account (config : Config) (P : State → Operations → State → Prop) : Prop where
  nil : ∀ s, P s [] s
  append : ∀ {s t u first rest}, P s first t → P t rest u → P s (first ++ rest) u
  operate : ∀ {operation s result t}, (config.perform operation).Returns s result t →
    P s [(operation, s)] t
  leave : ∀ {s operations t frame calls}, P s.entered operations t →
    t.stack.calls = frame :: calls → P s operations (Action.afterPop t frame calls)

/-- Between the beginning and the end of the request `P` holds of what was performed. -/
def Accounts (config : Config) (P : State → Operations → State → Prop) (levels : Nat)
    (request : Request) : Prop :=
  ∀ ⦃s t result⦄, (config.carryOut levels request).Returns s result t →
    P s (config.operations levels request s) t

namespace Account

variable {P : State → Operations → State → Prop} (account : config.Account P)
include account

/-- An account of the requests that a script makes is one of the script. -/
theorem script {script : Script α} {result : Except Fault α}
    (requests : script.Asks (config.Accounts P levels))
    (returned : (script.run (config.carryOut levels)).Returns s result t) :
    P s (script.operations (config.carryOut levels) (config.operations levels) s) t := by
  induction script generalizing s with
  | done a =>
    obtain rfl : s = t := by
      cases result <;> cases returned
      rfl
    exact account.nil s
  | ask request next ih =>
    rw [Script.operations]
    obtain ⟨answer, u, answered, rest⟩ | ⟨fault, -, failed⟩ := Action.returns_bind_iff.mp returned
    · refine account.append (requests.1 answered) ?_
      unfold Action.Returns at answered
      rw [answered]
      exact ih answer (requests.2 answer) rest
    · have only := requests.1 failed
      unfold Action.Returns at failed
      rw [failed]
      exact account.append only (account.nil t)

/-- An account of the body of a function is one of an activation, at the end of which the frame is
popped. -/
theorem activation {params : List VarId} {values : List Value} {body : StmtId}
    {result : Except Fault Value}
    (requests : (config.bodyScript params values body).Asks (config.Accounts P levels))
    (returned : (config.activation (CellC.exec config levels) params values body).Returns s result
      t) :
    P s ((config.bodyScript params values body).operations (config.carryOut levels)
      (config.operations levels) s.entered) t := by
  obtain ⟨outcome, u, frame, ended, found, rfl, -⟩ := body_of_returns_activation returned
  exact account.leave (account.script requests ended) found

/-- An account of whatever calls ask for is one of calls. -/
theorem invoke (callee : FuncId) (values : List Value) (type : TypeId)
    (requests : ∀ asked : Request, asked.rank ≤ 1 → config.Accounts P levels asked) :
    config.Accounts P levels (.invoke callee values type) := by
  intro s t result returned
  have admission : (config.admissionScript callee values).Asks (config.Accounts P levels) :=
    (config.asks_admissionScript callee values).mono fun asked rank =>
      requests asked (rank ▸ Nat.zero_le 1)
  rw [operations_invoke]
  obtain ⟨⟨params, body⟩, u, admitted, rest⟩ | ⟨fault, -, refused⟩ :=
    Action.returns_bind_iff.mp (Job.ends_invoke_iff.mp returned)
  · refine account.append (account.script admission admitted) ?_
    have bodies : (config.bodyScript params values body).Asks (config.Accounts P levels) :=
      (config.asks_bodyScript params values body).mono requests
    unfold Action.Returns at admitted
    rw [admitted]
    obtain ⟨ret, v, ended, viewed⟩ | ⟨fault, -, failed⟩ := Action.returns_bind_iff.mp rest
    · cases result <;> cases viewed
      exact account.activation bodies ended
    · exact account.activation bodies failed
  · have only := account.script admission refused
    unfold Action.Returns at refused
    rw [refused]
    exact account.append only (account.nil t)

/-- An account holds of every request that ends, between its beginning and its end. -/
theorem carryOut (levels : Nat) (request : Request) : config.Accounts P levels request := by
  induction levels, request using Request.induction with
  | operate levels operation =>
    intro s t result returned
    rw [operations_operate]
    exact account.operate returned
  | exhausted request tree =>
    intro s t result returned
    cases request with
    | evaluate | execute | iterate => cases result <;> cases returned
    | operate | invoke | run => cases tree
  | evaluate levels id ih =>
    intro s t result returned
    exact account.script ((Script.asks_true _).mono fun asked _ => ih asked)
      (Job.ends_evaluate_iff.mp returned)
  | execute levels id ih =>
    intro s t result returned
    exact account.script ((Script.asks_true _).mono fun asked _ => ih asked)
      (Job.ends_execute_iff.mp returned)
  | iterate levels cond body step ih =>
    intro s t result returned
    exact account.script ((Script.asks_true _).mono fun asked _ => ih asked)
      (Job.ends_iterate_iff.mp returned)
  | run levels ih =>
    intro s t result returned
    rw [operations_run]
    exact account.script (config.asks_runScript.mono ih)
      (Job.ends_run_iff.mp returned)
  | invoke levels callee values type ih => exact account.invoke callee values type ih

end Account

end Config

end CellC
