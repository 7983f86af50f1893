import CellC.Proofs.Correspondence

/-!
# Callees do not see their callers

A call depends on its arguments, on the heap, on the file-scope variables, on the input, and on the
depth of the stack if that is limited. What the frames of the callers hold makes no difference: two
calls from states that differ only there run in lockstep, in frames that are equal all the time.

## Main definitions

* `Config.Alike`: states in which a call finds the same
* `Config.Within`: moments of two runs within activations of the same function
* `State.SameOutput`: the same lines were added to the output

## Main results

* `Config.correspondence_within`: activations of the same function run in lockstep
* `callee_isolation`: calls from states that are alike end alike
-/

namespace CellC

open CellC.Action (Related Matching)

/-! ### States that are alike -/

/-- The printer after lines went through its channel. -/
def Printer.extended (printer : Printer) (lines : List String) : Printer :=
  { printer with lines := printer.lines ++ lines.toArray }

/-- A line adds the same to the output of all printers with the same channel. -/
theorem Printer.println_eq_extended (printer : Printer) (line : String) :
    printer.println line = printer.extended (if printer.channel = .silent then [] else [line]) := by
  obtain ⟨channel, lines⟩ := printer
  cases channel <;> simp [println, extended]

@[simp] theorem Printer.extended_nil (printer : Printer) : printer.extended [] = printer := by
  simp [extended]

/-- Lines that go through a channel in two batches go through it as one. -/
theorem Printer.extended_extended (printer : Printer) (first second : List String) :
    (printer.extended first).extended second = printer.extended (first ++ second) := by
  simp [extended]

/-- From `s` to `s'` and from `t` to `t'` the same lines were added to the output. -/
def State.SameOutput (s s' t t' : State) : Prop :=
  ∃ lines, s'.printer = s.printer.extended lines ∧ t'.printer = t.printer.extended lines

/-- A call finds the same in both states: the same heap, file-scope variables, input and channel for
output, and as many frames if their number is limited. -/
structure Config.Alike (config : Config) (s t : State) : Prop where
  heap : t.heap = s.heap
  fileScope : ∀ var, config.setup.hasFileScope var = true →
    t.stack.root.value? var = s.stack.root.value? var
  input : t.input = s.input
  channel : t.printer.channel = s.printer.channel
  depth : config.depthLimit ≠ none → t.stack.depth = s.stack.depth

namespace Config

/-- Moments of two runs that began in `s₀` and `t₀`: they are alike, with the given frames of calls,
and printed the same so far. -/
structure Lockstep (config : Config) (s₀ t₀ : State) (calls calls' : List Frame)
    (s t : State) : Prop extends config.Alike s t where
  calls : s.stack.calls = calls
  calls' : t.stack.calls = calls'
  output : State.SameOutput s₀ s t₀ t

/-- The same with activations that have equal frames, and the given frames below. -/
def Within (config : Config) (s₀ t₀ : State) (below : List Frame × List Frame)
    (s t : State) : Prop :=
  ∃ frame, config.Lockstep s₀ t₀ (frame :: below.1) (frame :: below.2) s t

end Config

theorem CallStack.modifyTop_of_calls {stack : CallStack} {frame : Frame} {calls : List Frame}
    (found : stack.calls = frame :: calls) (f : Frame → Frame) :
    stack.modifyTop f = { stack with calls := f frame :: calls } := by
  obtain ⟨root, _⟩ := stack
  cases found
  rfl

/-- The innermost frame is the first of the frames of calls. -/
theorem CallStack.top_of_calls {stack : CallStack} {frame : Frame} {calls : List Frame}
    (found : stack.calls = frame :: calls) : stack.top = frame := by
  rw [top, found, List.headD_cons]

namespace Config.Lockstep

variable {config : Config} {s₀ t₀ s t : State} {calls calls' : List Frame}

/-- A line printed on both sides keeps the runs in step. -/
theorem println (h : config.Lockstep s₀ t₀ calls calls' s t) (line : String) :
    config.Lockstep s₀ t₀ calls calls' { s with printer := s.printer.println line }
      { t with printer := t.printer.println line } := by
  obtain ⟨lines, before, before'⟩ := h.output
  refine ⟨⟨h.heap, h.fileScope, h.input, ?_, h.depth⟩, h.calls, h.calls',
    lines ++ (if s.printer.channel = .silent then [] else [line]), ?_, ?_⟩
  · simp only [Printer.println_eq_extended, Printer.extended, h.channel]
  · rw [← Printer.extended_extended, ← before, Printer.println_eq_extended]
  · rw [← Printer.extended_extended, ← before', Printer.println_eq_extended, h.channel]

/-- The same update of equal innermost frames keeps the runs in step. -/
theorem modifyTop {frame : Frame} (h : config.Lockstep s₀ t₀ (frame :: calls) (frame :: calls') s t)
    (f : Frame → Frame) :
    config.Lockstep s₀ t₀ (f frame :: calls) (f frame :: calls')
      { s with stack := s.stack.modifyTop f } { t with stack := t.stack.modifyTop f } := by
  have top := CallStack.modifyTop_of_calls h.calls f
  have top' := CallStack.modifyTop_of_calls h.calls' f
  refine ⟨⟨h.heap, ?_, h.input, h.channel, ?_⟩, ?_, ?_, h.output⟩
  · rw [top, top']
    exact h.fileScope
  · rw [CallStack.depth_modifyTop, CallStack.depth_modifyTop]
    exact h.depth
  · rw [top]
  · rw [top']

/-- A binding of a file-scope variable on both sides keeps the runs in step. -/
theorem bindRoot (h : config.Lockstep s₀ t₀ calls calls' s t) (var : VarId) (value : Value) :
    config.Lockstep s₀ t₀ calls calls'
      { s with stack := s.stack.modifyRoot (·.bind var value) }
      { t with stack := t.stack.modifyRoot (·.bind var value) } := by
  refine ⟨⟨h.heap, fun other scope => ?_, h.input, h.channel, h.depth⟩, h.calls, h.calls', h.output⟩
  simp only [CallStack.modifyRoot, Frame.value?_bind]
  rw [h.fileScope other scope]

/-- Both runs push an empty frame. -/
theorem entered (h : config.Lockstep s₀ t₀ calls calls' s t) :
    config.Lockstep s₀ t₀ ({} :: calls) ({} :: calls') s.entered t.entered := by
  -- Both stacks grow by one frame, so a limit on their number is as far away as before.
  refine ⟨⟨h.heap, h.fileScope, h.input, h.channel, fun limited => ?_⟩, ?_, ?_, h.output⟩
  · simp only [State.entered, CallStack.depth_push, h.depth limited]
  · simp only [State.entered, CallStack.push, h.calls]
  · simp only [State.entered, CallStack.push, h.calls']

/-- Both runs pop equal frames. -/
theorem popFrame {frame : Frame} {S : State → State → Prop} {E : Fault → State → State → Prop}
    {V : Value → Value → Prop} (h : config.Lockstep s₀ t₀ (frame :: calls) (frame :: calls') s t)
    (left : ∀ s t, config.Lockstep s₀ t₀ calls calls' s t → S s t) (refl : ∀ v, V v v) :
    Matching S E V (Action.popFrame.run s) (Action.popFrame.run t) := by
  have heap : (Action.afterPop t frame calls').heap = (Action.afterPop s frame calls).heap := by
    simp only [Action.afterPop, h.heap]
  have depth (limited : config.depthLimit ≠ none) : calls'.length + 1 = calls.length + 1 := by
    have both := h.depth limited
    simp only [CallStack.depth, h.calls, h.calls', List.length_cons] at both
    omega
  rw [Action.run_popFrame_cons h.calls, Action.run_popFrame_cons h.calls']
  refine .ok (refl _) (left _ _ ?_)
  exact ⟨⟨heap, h.fileScope, h.input, h.channel, depth⟩, rfl, rfl, h.output⟩

end Config.Lockstep

/-! ### Steps -/

namespace Config

/-- The action does the same in any two activations with equal frames. -/
abbrev Oblivious {α : Type} (config : Config) (s₀ t₀ : State) (below : List Frame × List Frame)
    (action : Action α) : Prop :=
  Related (config.Within s₀ t₀ below) (fun _ => config.Within s₀ t₀ below) (· = ·) action action

variable {config : Config} {s₀ t₀ : State} {below : List Frame × List Frame}

theorem oblivious_emit (event : Event) : config.Oblivious s₀ t₀ below (Action.emit event) :=
  fun _ _ ⟨frame, h⟩ => .ok rfl ⟨frame, { h with }⟩

theorem oblivious_modifyTop (f : Frame → Frame) :
    config.Oblivious s₀ t₀ below (Action.modifyTop f) :=
  fun _ _ ⟨frame, h⟩ => .ok rfl ⟨f frame, h.modifyTop f⟩

theorem oblivious_println (line : String) : config.Oblivious s₀ t₀ below (Action.println line) :=
  fun _ _ ⟨frame, h⟩ => .ok rfl ⟨frame, h.println line⟩

theorem oblivious_readInteger : config.Oblivious s₀ t₀ below Action.readInteger := by
  rintro s t ⟨frame, h⟩
  have read : config.Lockstep s₀ t₀ (frame :: below.1) (frame :: below.2)
      { s with input := s.input.read.2 } { t with input := s.input.read.2 } :=
    { h with input := rfl }
  unfold Action.readInteger
  rw [EStateM.run_bind, EStateM.run_bind, EStateM.run_modifyGet, EStateM.run_modifyGet]
  dsimp only
  rw [h.input]
  cases s.input.read.1 with
  | value n => exact .ok rfl ⟨frame, read⟩
  | unavailable => exact .ok rfl ⟨frame, read⟩
  | malformed word error => exact .ok rfl ⟨frame, { read with }⟩

/-- An activation finds the value of a variable in its own frame or at file scope. -/
theorem oblivious_varValue (var : VarId) : config.Oblivious s₀ t₀ below (config.varValue var) := by
  rintro s t ⟨frame, h⟩
  have same : config.visibleValue? t.stack var = config.visibleValue? s.stack var := by
    unfold visibleValue?
    rw [CallStack.top_of_calls h.calls, CallStack.top_of_calls h.calls']
    cases frame.value? var with
    | some value => rfl
    | none =>
      dsimp only
      split
      · next scope => exact h.fileScope var scope
      · rfl
  unfold varValue
  rw [Action.run_get_bind, Action.run_get_bind]
  rw [same]
  cases config.visibleValue? s.stack var with
  | some value => exact .ok rfl ⟨frame, h⟩
  | none => exact .fault ⟨frame, h⟩

/-- An assignment has the same effect in both runs, be the variable local or of file scope. -/
theorem oblivious_assignVar (var : VarId) (value : Value) :
    config.Oblivious s₀ t₀ below (config.assignVar var value) := by
  rintro s t ⟨frame, h⟩
  unfold assignVar
  rw [Action.run_get_bind, Action.run_get_bind]
  rw [CallStack.top_of_calls h.calls, CallStack.top_of_calls h.calls']
  split
  · exact .ok rfl ⟨frame, h.bindRoot var value⟩
  · exact .ok rfl ⟨_, h.modifyTop (·.bind var value)⟩

theorem oblivious_allocate (size : Cell) (purpose : Purpose) :
    config.Oblivious s₀ t₀ below (Action.allocate size purpose) := by
  rintro s t ⟨frame, h⟩
  rw [Action.run_allocate, Action.run_allocate, h.heap]
  cases s.heap.allocate size purpose with
  | ok made => exact .ok rfl ⟨frame, { h with heap := rfl }⟩
  | error fault => exact .fault ⟨frame, h⟩

theorem oblivious_release (address : Address) :
    config.Oblivious s₀ t₀ below (Action.release address) := by
  rintro s t ⟨frame, h⟩
  rw [Action.run_release, Action.run_release, h.heap]
  exact .ok rfl ⟨frame, { h with heap := rfl }⟩

theorem oblivious_loadAt (address : Address) (type : TypeId) :
    config.Oblivious s₀ t₀ below (config.loadAt address type) := by
  unfold loadAt
  split
  · exact .pure rfl
  refine Related.bind_eq ?_ fun cell => .pure rfl
  rintro s t ⟨frame, h⟩
  rw [Action.run_load, Action.run_load, h.heap]
  cases s.heap.load address (config.types.width type) with
  | ok cell => exact .ok rfl ⟨frame, h⟩
  | error fault => exact .fault ⟨frame, h⟩

theorem oblivious_storeAt (address : Address) (type : TypeId) (value : Value) :
    config.Oblivious s₀ t₀ below (config.storeAt address type value) := by
  rintro s t ⟨frame, h⟩
  unfold storeAt
  rw [Action.run_store, Action.run_store, h.heap]
  cases s.heap.store address (config.types.width type) value.cell with
  | ok heap => exact .ok rfl ⟨frame, { h with heap := rfl }⟩
  | error fault => exact .fault ⟨frame, h⟩

/-- A call is refused in both runs or in neither. -/
theorem related_checkDepth {S : State → State → Prop} (alike : ∀ s t, S s t → config.Alike s t) :
    Related S (fun _ => S) (· = ·) config.checkDepth config.checkDepth := by
  intro s t start
  unfold checkDepth
  cases limited : config.depthLimit with
  | none => exact .ok rfl start
  | some limit =>
    have depth := (alike s t start).depth (by simp [limited])
    dsimp only
    rw [Action.run_get_bind, Action.run_get_bind]
    rw [depth]
    split
    · exact .fault start
    · exact .ok rfl start

theorem oblivious_readValue (type : TypeId) :
    config.Oblivious s₀ t₀ below (config.readValue type) := by
  refine oblivious_readInteger.bind_eq fun n => ?_
  cases n with
  | some n => exact .pure rfl
  | none => exact (oblivious_emit _).bind_eq fun _ => .pure rfl

/-- A call of a primitive does the same in both runs. -/
theorem oblivious_dispatchPrimitive (id : ExprId) (primitive : Primitive) (values : List Value)
    (type : TypeId) :
    config.Oblivious s₀ t₀ below (config.dispatchPrimitive id primitive values type) := by
  unfold dispatchPrimitive primitiveCall
  refine (oblivious_emit _).bind_eq fun _ => ?_
  refine (related_checkArity (fun _ _ _ _ start => start) _ _ _).bind_eq fun _ => ?_
  cases primitive with
  | read =>
    dsimp only
    split
    · exact (oblivious_println _).bind_eq fun _ => oblivious_readValue type
    · exact oblivious_readValue type
  | print => exact (oblivious_println _).bind_eq fun _ => .pure rfl
  | allocate => exact (oblivious_allocate _ _).bind_eq fun _ => .pure rfl
  | free => exact (oblivious_release _).discard.bind_eq fun _ => .pure rfl

/-- Activations run in lockstep if their bodies do in equal frames. -/
theorem matching_activation_lockstep {calls calls' : List Frame} {s t : State}
    {S : State → State → Prop} (h : config.Lockstep s₀ t₀ calls calls' s t)
    (left : ∀ s t, config.Lockstep s₀ t₀ calls calls' s t → S s t)
    {exec exec' : StmtId → Action Completion}
    (bodies : ∀ stmt, Related (config.Within s₀ t₀ (calls, calls'))
      (fun _ => config.Within s₀ t₀ (calls, calls')) (Completion.Related (· = ·)) (exec stmt)
      (exec' stmt))
    (params : List VarId) {values values' : List Value}
    (cells : values.map Value.cell = values'.map Value.cell) (body : StmtId) :
    Matching S (fun _ => S) (· = ·) ((config.activation exec params values body).run s)
      ((config.activation exec' params values' body).run t) := by
  refine matching_activation (I := config.Within s₀ t₀ (calls, calls'))
    (F := fun _ => config.Within s₀ t₀ (calls, calls')) ⟨{}, h.entered⟩ ?_ ?_ ?_
  · -- The new frames are empty, and the parameters are bound to the same values in both.
    exact related_boundBody rfl (fun var value => oblivious_modifyTop (·.bind var value)) params
      cells (bodies body)
  · rintro s t ⟨top, h⟩
    exact h.popFrame left fun _ => rfl
  · rintro fault s t ⟨top, h⟩
    exact h.popFrame left fun _ => trivial

variable (config s₀ t₀) in
/-- Activations of the same function run in lockstep, also if they go wrong. -/
theorem correspondence_within :
    Correspondence config config (config.Within s₀ t₀) (fun below _ => config.Within s₀ t₀ below)
      (· = ·) where
  program := rfl
  setup := rfl
  refl _ := rfl
  cell := congrArg Value.cell
  fault _ start := start
  remark _ event _ := oblivious_emit event
  varValue _ var := oblivious_varValue var
  assignVar _ var value := oblivious_assignVar var value
  loadAt _ address type := oblivious_loadAt address type
  storeAt _ address type value := oblivious_storeAt address type value
  record _ expr v w same := same ▸ oblivious_modifyTop (·.record expr v)
  bind _ var value := oblivious_modifyTop (·.bind var value)
  returning _ v w same := same ▸ oblivious_modifyTop (·.returning v)
  newArray _ size :=
    (oblivious_allocate size .array).bind_eq fun base =>
      (oblivious_modifyTop (·.adopt base)).bind_eq fun _ => .pure rfl
  primitive _ id _ _ type primitive values values' _ _ same := by
    rw [List.forall₂_eq_eq_eq] at same
    rw [← same]
    exact oblivious_dispatchPrimitive id primitive values type
  dispatch _ id _ _ _ values values' _ _ same := by
    rw [List.forall₂_eq_eq_eq] at same
    rw [← same]
    exact oblivious_emit _
  checkDepth _ := related_checkDepth fun _ _ start => start.choose_spec.toAlike
  activation below exec exec' params values values' body bodies cells := by
    rintro s t ⟨frame, h⟩
    exact matching_activation_lockstep h (fun _ _ left => ⟨frame, left⟩) (bodies _) params cells
      body

end Config

/-- **Callees do not see their callers.** If two states are alike, then calls of one function with
the same cells as arguments end alike in them, whatever the frames hold otherwise: with the same
value or the same fault, in states that are alike again, and with the same lines added to the
output. -/
theorem callee_isolation {config : Config} {levels : Nat} {callee : FuncId} {type : TypeId}
    {values values' : List Value} (cells : values.map Value.cell = values'.map Value.cell)
    {s t s' : State} (alike : config.Alike s t) {result : Except Fault Value}
    (run : (config.functionCall (CellC.exec config levels) callee values type).Returns s result
      s') :
    ∃ t', (config.functionCall (CellC.exec config levels) callee values' type).Returns t result t' ∧
      config.Alike s' t' ∧ State.SameOutput s s' t t' := by
  have start : config.Lockstep s t s.stack.calls t.stack.calls s t :=
    ⟨alike, rfl, rfl, [], by simp, by simp⟩
  -- The frames of the callers differ, so the runs are in lockstep but not within one activation.
  have calls := Config.related_functionCall rfl rfl (fun _ => rfl) (congrArg Value.cell)
    (S := config.Lockstep s t s.stack.calls t.stack.calls)
    (E := fun _ => config.Lockstep s t s.stack.calls t.stack.calls) (V := (· = ·))
    (fun _ _ _ _ start => start)
    (Config.related_checkDepth fun _ _ start => start.toAlike)
    (fun params body _ _ h => Config.matching_activation_lockstep h (fun _ _ left => left)
      ((Config.correspondence_within config s t).exec levels _) params cells body) callee type cells
  obtain ⟨result', t', other, same⟩ := calls.returns start run
  cases result with
  | ok value =>
    cases result' with
    | ok value' => exact ⟨t', same.1 ▸ other, same.2.toAlike, same.2.output⟩
    | error fault' => exact same.elim
  | error fault =>
    cases result' with
    | ok value' => exact same.elim
    | error fault' => exact ⟨t', same.1 ▸ other, same.2.toAlike, same.2.output⟩

/-- A function that prints its argument, stores it in the file-scope variable `g`, and then reads
the variable `v`, which it does not declare. -/
def readUndeclared : Config where
  program := {
    names := ⟨⟨#["", "g", "p", "v", "f", "PRINT"]⟩⟩
    vars := #[⟨⟨1⟩, .int, none⟩, ⟨⟨2⟩, .int, none⟩, ⟨⟨3⟩, .int, none⟩]
    exprs := #[⟨.ident ⟨0⟩, .int⟩, ⟨.ident ⟨1⟩, .int⟩, ⟨.binary .assign ⟨0⟩ ⟨1⟩, .int⟩,
      ⟨.call ⟨1⟩ [⟨1⟩], .void⟩, ⟨.ident ⟨2⟩, .int⟩]
    stmts := #[.expr ⟨2⟩, .expr ⟨3⟩, .return (some ⟨4⟩), .compound [⟨0⟩, ⟨1⟩, ⟨2⟩]]
    funcs := #[⟨⟨4⟩, [⟨1⟩], .int, some ⟨3⟩⟩, ⟨⟨5⟩, [], .void, none⟩] }
  setup := {
    globals := [⟨0⟩]
    primitives := ({} : Std.TreeMap Nat Primitive).insert 1 .print
    entry := ⟨0⟩ }

/-- A value of `v` in the caller's frame, or in the file-scope frame if `v` has no file scope, is
not found. -/
theorem callee_isolation_readUndeclared :
    let s : State := { stack := { calls := [Frame.bind {} ⟨2⟩ (.int 5)] } }
    let t : State := { stack := { root := Frame.bind {} ⟨2⟩ (.int 7) } }
    ∃ s' t', (readUndeclared.functionCall (CellC.exec readUndeclared 5) ⟨0⟩ [.int 9] .int).Returns s
          (.error (.unbound "v")) s' ∧
        (readUndeclared.functionCall (CellC.exec readUndeclared 5) ⟨0⟩ [.char 9] .int).Returns t
          (.error (.unbound "v")) t' ∧
        readUndeclared.Alike s' t' ∧ State.SameOutput s s' t t' := by
  intro s t
  have alike : readUndeclared.Alike s t := by
    refine ⟨rfl, fun var scope => ?_, rfl, rfl, fun limited => absurd rfl limited⟩
    obtain rfl : var = ⟨0⟩ := by simpa [Setup.hasFileScope, readUndeclared] using scope
    rfl
  have returns : ∃ s', (readUndeclared.functionCall (CellC.exec readUndeclared 5) ⟨0⟩ [.int 9]
      .int).Returns s (.error (.unbound "v")) s' := ⟨_, rfl⟩
  obtain ⟨s', run⟩ := returns
  have cells : [Value.int 9].map Value.cell = [Value.char 9].map Value.cell := by decide
  obtain ⟨t', run', same, output⟩ := callee_isolation cells alike run
  exact ⟨s', t', run, run', same, output⟩

end CellC
