import CellC.Proofs.Parts

/-!
# Faults stop everything

A fault anywhere in the course of a request is the outcome of the request. Between the moment at
which something went wrong and the end of the request nothing happens but that the frames of the
activations that began in between are popped, the innermost first.

## Main definitions

* `State.unwound`: the state after some frames were popped

## Main results

* `fatal_faults`: a request ends with the first fault in its course, in the state of the fault but
  for the frames that were popped
-/

namespace CellC

/-! ### Popping frames -/

/-- The state after `n` frames were popped one after the other, each with the arrays in it. -/
def State.unwound : Nat → State → State
  | 0, s => s
  | n + 1, s =>
    match s.stack.calls with
    | [] => s
    | frame :: calls => unwound n (Action.afterPop s frame calls)

namespace State

@[simp] theorem unwound_zero (s : State) : s.unwound 0 = s := rfl

theorem unwound_succ {s : State} {frame : Frame} {calls : List Frame}
    (found : s.stack.calls = frame :: calls) (n : Nat) :
    s.unwound (n + 1) = (Action.afterPop s frame calls).unwound n := by
  rw [unwound, found]

theorem unwound_succ_of_nil {s : State} (found : s.stack.calls = []) (n : Nat) :
    s.unwound (n + 1) = s := by
  rw [unwound, found]

theorem unwound_add (s : State) (m n : Nat) : s.unwound (m + n) = (s.unwound m).unwound n := by
  induction m generalizing s with
  | zero => rw [Nat.zero_add, unwound_zero]
  | succ m ih =>
    rw [Nat.add_right_comm]
    cases found : s.stack.calls with
    | nil =>
      rw [unwound_succ_of_nil found, unwound_succ_of_nil found]
      cases n with
      | zero => rfl
      | succ n => exact (unwound_succ_of_nil found n).symm
    | cons frame calls => rw [unwound_succ found, unwound_succ found, ih]

/-- Popping frames prints and reads nothing. -/
theorem unwound_channels (s : State) (n : Nat) :
    (s.unwound n).printer = s.printer ∧ (s.unwound n).input = s.input ∧
      (s.unwound n).globalsReady = s.globalsReady := by
  induction n generalizing s with
  | zero => exact ⟨rfl, rfl, rfl⟩
  | succ n ih =>
    cases found : s.stack.calls with
    | nil => rw [unwound_succ_of_nil found]; exact ⟨rfl, rfl, rfl⟩
    | cons frame calls => rw [unwound_succ found]; exact ih _

/-- Popping frames changes none of the others. -/
theorem unwound_stack (s : State) (n : Nat) :
    (s.unwound n).stack = { s.stack with calls := s.stack.calls.drop n } := by
  induction n generalizing s with
  | zero => rfl
  | succ n ih =>
    cases found : s.stack.calls with
    | nil => rw [unwound_succ_of_nil found, List.drop_nil, ← found]
    | cons frame calls => rw [unwound_succ found, ih]; rfl

/-- Popping frames ends the arrays in them and changes nothing else in memory. -/
theorem unwound_heap (s : State) (n : Nat) :
    (s.unwound n).heap = s.heap.removeAll ((s.stack.calls.take n).flatMap Frame.arrays) := by
  induction n generalizing s with
  | zero => exact (Heap.removeAll_nil _).symm
  | succ n ih =>
    cases found : s.stack.calls with
    | nil => rw [unwound_succ_of_nil found]; exact (Heap.removeAll_nil _).symm
    | cons frame calls =>
      rw [unwound_succ found, ih, List.take_succ_cons, List.flatMap_cons, Heap.removeAll_append]
      rfl

end State

/-! ### Faults of parts -/

namespace Config

variable {config : Config}

section Calls

variable {levels : Nat} {callee : FuncId} {values : List Value} {type : TypeId} {s t u : State}
  {fault : Fault}

/-- A call goes wrong if it is not admitted. -/
theorem ends_invoke_of_admission
    (failed : ((config.admissionScript callee values).run (config.carryOut levels)).Returns s
      (.error fault) u) :
    Job.Ends config ⟨levels, .invoke callee values type, s⟩ (.error fault) u :=
  Job.ends_invoke_iff.mpr (Action.returns_bind_iff.mpr (.inr ⟨fault, rfl, failed⟩))

/-- A call goes wrong if its body does, and pops the frame. -/
theorem ends_invoke_of_body {params : List VarId} {body : StmtId}
    (admitted : ((config.admissionScript callee values).run (config.carryOut levels)).Returns s
      (.ok (params, body)) t)
    (failed : ((config.bodyScript params values body).run (config.carryOut levels)).Returns
      t.entered (.error fault) u) :
    Job.Ends config ⟨levels, .invoke callee values type, s⟩ (.error fault) (u.unwound 1) := by
  obtain ⟨frame, found, popped⟩ := returns_activation failed
  rw [State.unwound_succ found]
  refine Job.ends_invoke_iff.mpr (Action.returns_bind_iff.mpr (.inl ⟨_, _, admitted, ?_⟩))
  exact Action.returns_bind_iff.mpr (.inr ⟨fault, rfl, popped⟩)

end Calls

/-- A job fails if a part of it does. If the part belongs to the body of a call, then the frame of
the call is popped. -/
theorem Part.fails {whole part : Job} {fault : Fault} {u : State} (h : config.Part whole part)
    (failed : part.Ends config (.error fault) u) :
    ∃ n, part.state.stack.depth = whole.state.stack.depth + n ∧
      whole.Ends config (.error fault) (u.unwound n) := by
  -- Only the body of a call takes place in another frame than the job itself.
  cases h with
  | evaluate reaches =>
    refine ⟨0, (undisturbed_reaches reaches).depth, ?_⟩
    exact Job.ends_evaluate_iff.mpr (reaches.fails failed)
  | execute reaches =>
    refine ⟨0, (undisturbed_reaches reaches).depth, ?_⟩
    exact Job.ends_execute_iff.mpr (reaches.fails failed)
  | iterate reaches =>
    refine ⟨0, (undisturbed_reaches reaches).depth, ?_⟩
    exact Job.ends_iterate_iff.mpr (reaches.fails failed)
  | run reaches =>
    refine ⟨0, (undisturbed_reaches reaches).depth, ?_⟩
    exact Job.ends_run_iff.mpr (reaches.fails failed)
  | admission reaches =>
    refine ⟨0, (undisturbed_reaches reaches).depth, ?_⟩
    exact ends_invoke_of_admission (reaches.fails failed)
  | body admitted reaches =>
    refine ⟨1, ?_, ends_invoke_of_body admitted (reaches.fails failed)⟩
    rw [(undisturbed_reaches reaches).depth, ← (undisturbed_script admitted).depth]
    exact CallStack.depth_push _

/-! ### Faults at any depth -/

/-- A job fails if anything in its course does. -/
theorem Contains.fails {whole part : Job} {fault : Fault} {u : State}
    (h : config.Contains whole part) (failed : part.Ends config (.error fault) u) :
    ∃ n, part.state.stack.depth = whole.state.stack.depth + n ∧
      whole.Ends config (.error fault) (u.unwound n) := by
  induction h using Relation.ReflTransGen.head_induction_on with
  | refl => exact ⟨0, rfl, failed⟩
  | head step _ ih =>
    obtain ⟨n, depth, failed⟩ := ih
    obtain ⟨m, depth', failed⟩ := step.fails failed
    refine ⟨n + m, by omega, ?_⟩
    rwa [State.unwound_add]

end Config

/-- If anything in the course of a job goes wrong, at any depth of expressions, statements and
activations, then the job ends with the same fault. From the moment of the fault on, the frames that
were pushed since the job began are popped, the innermost first, and nothing else happens: nothing
is printed or read, of the other frames none changes, and memory changes only in that the arrays in
the popped frames end.

A job ends as the evaluator does (`Config.carryOut`), and its parts are those of the rules, by
`Config.eval_eq_run`, `Config.exec_eq_run`, `Config.loop_eq_run`, `Config.functionCall_eq_run` and
`Config.run_eq_run`. -/
theorem fatal_faults {config : Config} {whole part : Job} {fault : Fault} {u : State}
    (contains : config.Contains whole part) (failed : part.Ends config (.error fault) u) :
    ∃ n s', u.stack.depth = whole.state.stack.depth + n ∧
      whole.Ends config (.error fault) s' ∧
      s' = u.unwound n ∧
      s'.printer = u.printer ∧ s'.input = u.input ∧ s'.globalsReady = u.globalsReady ∧
      s'.stack = { u.stack with calls := u.stack.calls.drop n } ∧
      s'.heap = u.heap.removeAll ((u.stack.calls.take n).flatMap Frame.arrays) := by
  obtain ⟨n, depth, ended⟩ := contains.fails failed
  obtain ⟨printer, input, ready⟩ := u.unwound_channels n
  have undisturbed := Config.undisturbed_carryOut part.request failed
  exact ⟨n, u.unwound n, undisturbed.depth.trans depth, ended, rfl, printer, input, ready,
    u.unwound_stack n, u.unwound_heap n⟩

/-- A function that declares an array and then divides by its argument, and an entry point that
calls it with zero. -/
def divideInCall : Config where
  program := {
    types := ⟨⟨#[.int, .char, .void, .array .int 2]⟩⟩
    names := ⟨⟨#["", "f", "p", "a", "main"]⟩⟩
    vars := #[⟨⟨2⟩, .int, none⟩, ⟨⟨3⟩, ⟨3⟩, none⟩]
    exprs := #[⟨.intLit 1, .int⟩, ⟨.ident ⟨0⟩, .int⟩, ⟨.binary .div ⟨0⟩ ⟨1⟩, .int⟩,
      ⟨.intLit 0, .int⟩, ⟨.call ⟨0⟩ [⟨3⟩], .int⟩]
    stmts := #[.decl [⟨1⟩], .return (some ⟨2⟩), .compound [⟨0⟩, ⟨1⟩], .return (some ⟨4⟩)]
    funcs := #[⟨⟨1⟩, [⟨0⟩], .int, some ⟨2⟩⟩, ⟨⟨4⟩, [], .int, some ⟨3⟩⟩]
    topLevel := #[.function ⟨0⟩, .function ⟨1⟩] }
  setup := { entry := ⟨1⟩ }

open Script in
/-- The quotient is evaluated two activations deep, where there is an array. -/
theorem quotient_of_divideInCall : ∃ t u,
    divideInCall.Contains ⟨9, .run, {}⟩ ⟨5, .evaluate ⟨2⟩, t⟩ ∧
    Job.Ends divideInCall ⟨5, .evaluate ⟨2⟩, t⟩ (.error .divisionByZero) u ∧
    u.stack.depth = 3 ∧ u.heap.blocks.length = 1 ∧ (u.unwound 2).heap.blocks = [] :=
  ⟨_, _,
    .head (b := ⟨9, .invoke ⟨1⟩ [] .int, _⟩) (.run (reaches_of_requestAt (k := 4) (by rfl))) <|
    .head (b := ⟨9, .execute ⟨3⟩, _⟩) (.body (by rfl) (reaches_of_requestAt (k := 0) (by rfl))) <|
    .head (b := ⟨8, .evaluate ⟨4⟩, _⟩) (.execute (reaches_of_requestAt (k := 2) (by rfl))) <|
    .head (b := ⟨7, .invoke ⟨0⟩ [.int 0] .int, _⟩)
      (.evaluate (reaches_of_requestAt (k := 4) (by rfl))) <|
    .head (b := ⟨7, .execute ⟨2⟩, _⟩) (.body (by rfl) (reaches_of_requestAt (k := 2) (by rfl))) <|
    .head (b := ⟨6, .execute ⟨1⟩, _⟩) (.execute (reaches_of_requestAt (k := 3) (by rfl))) <|
    .single (.execute (reaches_of_requestAt (k := 2) (by rfl))),
    by rfl, by rfl, by rfl, by rfl⟩

/-- The run ends with the fault of the quotient, without a frame or an array of the calls. -/
theorem fatal_faults_divideInCall : ∃ s',
    (divideInCall.run 9).Returns {} (.error .divisionByZero) s' ∧
      s'.stack.depth = 1 ∧ s'.heap.blocks = [] := by
  obtain ⟨t, u, contains, failed, depth, -, emptied⟩ := quotient_of_divideInCall
  obtain ⟨n, s', popped, ended, rfl, -⟩ := fatal_faults contains failed
  have frames : 3 = 1 + n := depth.symm.trans popped
  obtain rfl : n = 2 := by omega
  exact ⟨_, ended, (Config.undisturbed_carryOut .run ended).depth, emptied⟩

end CellC
