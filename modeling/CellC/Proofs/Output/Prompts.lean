import CellC.Proofs.Output.Discretion
import CellC.Proofs.Output.Lines
import CellC.Proofs.Sessions

/-!
# Prompts and channels

Where output goes and whether a line asks for each integer makes no difference to anything but the
output. If it is kept on both sides, then the output without these lines is the output with them, in
which every line that asks for an integer has been deleted; there is one for each call that reads an
integer, also if there was none to be had, and also in runs that went wrong later.

## Main definitions

* `State.SameButPrinter`: states that are equal but for their printers
* `Config.reads`: the entries of the journal that announce a call that reads an integer
* `State.Unasked`: output with lines that ask for integers, and output without

## Main results

* `Config.unasked_requests`: requests keep the one output the other one without such lines
* `channels_and_prompts_are_inert`: sessions that differ in channel and prompt only
-/

namespace CellC

open CellC.Action (Related Matching Settles)

variable {α β : Type}

/-! ### States that differ in their printers -/

/-- States that are equal but for their printers. -/
structure State.SameButPrinter (s t : State) : Prop where
  stack : s.stack = t.stack
  heap : s.heap = t.heap
  input : s.input = t.input
  globalsReady : s.globalsReady = t.globalsReady
  journal : s.journal = t.journal

/-- The same readings, and any output. -/
def Coupling.anyOutput (prompt prompt' : Bool) : Coupling prompt prompt' where
  inputs := (· = ·)
  printers _ _ := True
  read same := by rw [same]; exact ⟨rfl, rfl⟩
  println _ _ := trivial
  prompted _ := trivial

theorem State.SameButPrinter.eq_rewired {s t : State} (same : s.SameButPrinter t) :
    t = s.rewired t.input t.printer := by
  obtain ⟨stack, heap, -, globalsReady, journal⟩ := same
  unfold rewired
  rw [stack, heap, globalsReady, journal]

theorem State.coupled_anyOutput (prompt prompt' : Bool) :
    State.Coupled (.anyOutput prompt prompt') = State.SameButPrinter := by
  funext s t
  refine propext ⟨fun coupled => ?_, fun same => ⟨same.input, trivial, same.eq_rewired⟩⟩
  obtain ⟨input, -, rest⟩ := coupled
  exact ⟨by rw [rest]; rfl, by rw [rest]; rfl, input, by rw [rest]; rfl, by rw [rest]; rfl⟩

/-! ### Calls that read an integer -/

/-- An entry of the journal that announces a call which reads an integer: its callee is the
primitive for it, and it has the right number of arguments. -/
def Config.reads (config : Config) : Event → Bool
  | .dispatch id values =>
    match config.program.expr? id with
    | some ⟨.call callee _, _⟩ =>
      config.setup.primitive? callee = some .read ∧ values.length = Primitive.read.arity
    | _ => false
  | _ => false

/-- The number of calls in a journal that read an integer. -/
def Config.countReads (config : Config) (journal : Array Event) : Nat :=
  journal.toList.countP config.reads

namespace Config

variable (config : Config)

theorem countReads_push (journal : Array Event) (event : Event) :
    config.countReads (journal.push event) =
      config.countReads journal + if config.reads event then 1 else 0 := by
  unfold countReads
  rw [Array.toList_push, List.countP_append, List.countP_singleton]

theorem reads_dispatch {id : ExprId} {callee : FuncId} {args : List ExprId} {type : TypeId}
    (found : config.program.expr? id = some ⟨.call callee args, type⟩) (values : List Value) :
    config.reads (.dispatch id values) = true ↔
      config.setup.primitive? callee = some .read ∧ values.length = Primitive.read.arity := by
  unfold reads
  dsimp only
  rw [found]
  exact decide_eq_true_iff

/-- The calls that read an integer are among those of primitives. -/
theorem countReads_eq (journal : Array Event) :
    config.countReads journal = (config.primitiveCalls journal).countP fun call =>
      call.1 = .read ∧ call.2.length = Primitive.read.arity := by
  unfold countReads primitiveCalls
  rw [List.countP_filterMap]
  refine congrArg (List.countP · journal.toList) (funext fun event => ?_)
  cases event with
  | dispatch id values =>
    unfold reads called?
    dsimp only
    cases config.program.expr? id with
    | none => rfl
    | some expr =>
      obtain ⟨form, type⟩ := expr
      cases form with
      | call callee args =>
        dsimp only
        cases config.setup.primitive? callee <;> simp
      | _ => rfl
  | _ => rfl

end Config

/-! ### Output with and without prompts -/

/-- Two states that are equal but for their output, which both keep. That of the second one is that
of the first one without the lines that ask for integers. There is one of these lines for each call
that read an integer. -/
structure State.Unasked (config : Config) (s t : State) : Prop where
  alike : s.SameButPrinter t
  keeps : s.printer.channel = .buffer
  keeps' : t.printer.channel = .buffer
  lines : t.printer.lines.toList = s.printer.lines.toList.filter (· ≠ promptLine)
  free : ∀ line ∈ s.printer.lines.toList, '\n' ∉ line.toList
  count : s.printer.lines.toList.count promptLine = config.countReads s.journal

namespace Config

variable {config : Config}

/-- Both sides go the same way. -/
abbrev Parallel (config : Config) (V : α → β → Prop) (action : Action α) (other : Action β) :
    Prop :=
  Related (State.Unasked config) (fun _ => State.Unasked config) V action other

/-- An entry that announces no call which reads an integer goes to both journals. -/
theorem parallel_emit {event : Event} (other : config.reads event = false) :
    config.Parallel (· = ·) (Action.emit event) (Action.emit event) := by
  intro s t h
  refine .ok rfl ⟨⟨h.alike.stack, h.alike.heap, h.alike.input, h.alike.globalsReady,
    congrArg (Array.push · event) h.alike.journal⟩, h.keeps, h.keeps', h.lines, h.free, ?_⟩
  dsimp only
  rw [countReads_push, other, h.count]
  rfl

theorem Discreet.parallel {action : Action α} (discreet : config.Discreet action) :
    config.Parallel (· = ·) action action := by
  intro s t h
  rw [h.alike.eq_rewired, discreet.blind]
  have unasked (result : Except Fault α) {s' : State} (returned : action.Returns s result s') :
      s'.Unasked config (s'.rewired t.input t.printer) := by
    obtain ⟨input, printer, same⟩ := discreet.keeps returned
    exact {
      alike := ⟨rfl, rfl, input.trans h.alike.input, rfl, rfl⟩
      keeps := printer ▸ h.keeps
      keeps' := h.keeps'
      lines := printer ▸ h.lines
      free := printer ▸ h.free
      count := by rw [printer, countReads_eq, same, ← countReads_eq, h.count] }
  cases ran : action.run s with
  | ok a s' => exact .ok rfl (unasked (.ok a) ran)
  | error halt s' =>
    cases halt with
    | fault fault => exact .fault (unasked (.error fault) ran)
    | dangling => exact .dangling
    | exhausted => exact .exhausted

theorem parallel_checkArity (name : String) (expected got : Nat) :
    config.Parallel (· = ·) (checkArity name expected got) (checkArity name expected got) :=
  related_checkArity (fun _ _ _ _ start => start) name expected got

/-- A line that does not ask for an integer goes to both outputs. -/
theorem parallel_println {line : String} (free : '\n' ∉ line.toList) (other : line ≠ promptLine) :
    config.Parallel (· = ·) (Action.println line) (Action.println line) := by
  intro s t h
  refine .ok rfl ⟨⟨h.alike.stack, h.alike.heap, h.alike.input, h.alike.globalsReady,
    h.alike.journal⟩, ?_, ?_, ?_, ?_, ?_⟩
  all_goals simp only [Printer.println, h.keeps, h.keeps', Array.toList_push]
  · simp [h.lines, other]
  · simpa [or_imp, forall_and, free] using h.free
  · simpa [List.count_append, other] using h.count

theorem parallel_readValue (prompt : Bool) (type : TypeId) :
    config.Parallel (· = ·) (config.readValue type)
      ((config.withPrompt prompt).readValue type) := by
  have read : config.Parallel (· = ·) Action.readInteger Action.readInteger := by
    intro s t h
    have after : State.Unasked config { s with input := s.input.read.2 }
        { t with input := t.input.read.2 } :=
      { h with alike := { h.alike with input := by rw [h.alike.input] } }
    unfold Action.readInteger
    rw [EStateM.run_bind, EStateM.run_bind, EStateM.run_modifyGet, EStateM.run_modifyGet]
    dsimp only
    rw [h.alike.input] at after ⊢
    cases t.input.read.1 with
    | value n => exact .ok rfl after
    | unavailable => exact .ok rfl after
    | malformed word error =>
      exact ((Discreet.remark rfl).bind fun _ => .pure none).parallel after
  refine read.bind_eq fun n => ?_
  cases n with
  | some n => exact .pure rfl
  | none => exact (Discreet.remark rfl).parallel.bind_eq fun _ => .pure rfl

/-- A call that reads an integer asks for it on one side only, and is counted. -/
theorem parallel_dispatchRead (asks : config.prompt = true) {id : ExprId} {callee : FuncId}
    {args : List ExprId} {type : TypeId}
    (found : config.program.expr? id = some ⟨.call callee args, type⟩)
    (declared : config.setup.primitive? callee = some .read) {values : List Value}
    (arity : values.length = Primitive.read.arity) :
    config.Parallel (· = ·) (config.dispatchPrimitive id .read values type)
      ((config.withPrompt false).dispatchPrimitive id .read values type) := by
  intro s t h
  have counted : config.reads (.dispatch id values) = true :=
    (config.reads_dispatch found values).mpr ⟨declared, arity⟩
  have announced : s.journal.push (.dispatch id values) = t.journal.push (.dispatch id values) :=
    congrArg (Array.push · _) h.alike.journal
  unfold dispatchPrimitive
  rw [primitiveCall_read, primitiveCall_read, checkArity, if_pos arity, asks]
  refine parallel_readValue false type ⟨⟨h.alike.stack, h.alike.heap, h.alike.input,
    h.alike.globalsReady, announced⟩, ?_, ?_, ?_, ?_, ?_⟩
  all_goals simp only [Printer.prompted, Printer.println, h.keeps, h.keeps', Array.toList_push,
    if_true, withPrompt, Bool.false_eq_true, if_false]
  · simp [h.lines]
  · have free : '\n' ∉ promptLine.toList := by decide
    simpa [or_imp, forall_and, free] using h.free
  · rw [countReads_push, counted, List.count_append, h.count]
    simp

theorem parallel_dispatchPrimitive (asks : config.prompt = true) {id : ExprId} {callee : FuncId}
    {args : List ExprId} {type : TypeId} {primitive : Primitive}
    (found : config.program.expr? id = some ⟨.call callee args, type⟩)
    (declared : config.setup.primitive? callee = some primitive) (values : List Value) :
    config.Parallel (· = ·) (config.dispatchPrimitive id primitive values type)
      ((config.withPrompt false).dispatchPrimitive id primitive values type) := by
  by_cases reads : primitive = .read ∧ values.length = Primitive.read.arity
  · obtain ⟨rfl, arity⟩ := reads
    exact parallel_dispatchRead asks found declared arity
  have other : config.reads (.dispatch id values) = false := by
    rw [Bool.eq_false_iff, ne_eq, config.reads_dispatch found, declared, Option.some.injEq]
    exact reads
  refine (parallel_emit other).bind_eq fun _ => ?_
  cases primitive with
  | read =>
    unfold primitiveCall checkArity
    rw [if_neg fun arity => reads ⟨rfl, arity⟩]
    exact .fail fun _ _ start => start
  | print =>
    refine (parallel_checkArity _ _ _).bind_eq fun _ => ?_
    refine (parallel_println (Cell.text_free _) (Cell.text_ne_promptLine _)).bind_eq fun _ => ?_
    exact .pure rfl
  | allocate =>
    refine (parallel_checkArity _ _ _).bind_eq fun _ => ?_
    exact (Discreet.allocate _ _).parallel.bind_eq fun _ => .pure rfl
  | free =>
    refine (parallel_checkArity _ _ _).bind_eq fun _ => ?_
    exact (Discreet.release _).parallel.discard.bind_eq fun _ => .pure rfl

/-- Runs with and without lines that ask for integers go the same way, and the output of the one is
the output of the other without these lines. -/
theorem correspondence_unasked (asks : config.prompt = true) :
    Correspondence config (config.withPrompt false) (fun _ : Unit => State.Unasked config)
      (fun _ _ => State.Unasked config) (· = ·) where
  program := rfl
  setup := rfl
  refl _ := rfl
  cell := congrArg Value.cell
  fault _ start := start
  remark _ _ plain := (Discreet.remark plain).parallel
  varValue _ var := (Discreet.varValue var).parallel
  assignVar _ var value := (Discreet.assignVar var value).parallel
  loadAt _ address type := (Discreet.loadAt address type).parallel
  storeAt _ address type value := (Discreet.storeAt address type value).parallel
  record _ expr _ _ same := same ▸ (Discreet.modifyTop _).parallel
  bind _ var value := (Discreet.modifyTop _).parallel
  returning _ _ _ same := same ▸ (Discreet.modifyTop _).parallel
  newArray _ size := (Discreet.newArray size).parallel
  primitive _ id _ _ type primitive values _ found declared related := by
    rw [List.forall₂_eq_eq_eq] at related
    exact related ▸ parallel_dispatchPrimitive asks found declared values
  dispatch _ id callee _ _ values _ found declared related := by
    rw [List.forall₂_eq_eq_eq] at related
    have other : config.reads (.dispatch id values) = false := by
      rw [Bool.eq_false_iff, ne_eq, config.reads_dispatch found, declared]
      exact fun reads => by cases reads.1
    exact related ▸ parallel_emit other
  checkDepth _ := Discreet.checkDepth.parallel
  activation _ exec exec' params values values' body bodies cells := by
    intro s t h
    have entered : s.entered.Unasked config t.entered :=
      { h with
        alike := ⟨congrArg CallStack.push h.alike.stack, h.alike.heap, h.alike.input,
          h.alike.globalsReady, by
            unfold State.entered
            rw [h.alike.journal, h.alike.stack]⟩
        count := by
          unfold State.entered
          rw [countReads_push, h.count]
          rfl }
    refine matching_activation (I := State.Unasked config) (F := fun _ => State.Unasked config)
      entered ?_ (fun _ _ inside => Discreet.popFrame.parallel inside)
      (fun _ _ _ inside => Discreet.popFrame.parallel.weaken (fun _ _ _ => trivial) inside)
    have program : (config.withPrompt false).program = config.program := rfl
    exact related_boundBody program (fun _ _ => (Discreet.modifyTop _).parallel) params cells
      (bodies () body)

/-- Requests keep the one output the other one without the lines that ask for integers. -/
theorem unasked_requests (asks : config.prompt = true) (levels : Nat) :
    (∀ id, config.Parallel (· = ·) (CellC.eval config levels id)
      (CellC.eval (config.withPrompt false) levels id)) ∧
    (∀ id, config.Parallel (· = ·) (CellC.exec config levels id)
      (CellC.exec (config.withPrompt false) levels id)) ∧
    config.Parallel (· = ·) (config.run levels) ((config.withPrompt false).run levels) := by
  have rules := config.correspondence_unasked asks
  refine ⟨rules.eval levels (), ?_, ?_⟩
  · rw [← Completion.related_eq]
    exact rules.exec levels ()
  · refine rules.running (i := ()) (rules.eval levels ()) (fun s t h => h.alike.globalsReady.symm)
      (fun s t h => ?_) (fun callee _ _ => rules.functionCall (i := ()) (rules.exec levels) callee)
      (fun _ _ same => same ▸ (Discreet.remark rfl).parallel)
    exact { h with alike := { h.alike with globalsReady := rfl } }

end Config

/-! ### Sessions -/

namespace Config

/-- Demands do not tell printers apart, nor whether integers are asked for. -/
theorem demand_sameButPrinter (config : Config) (prompt' : Bool) (levels : Nat)
    (request : Request) (demand : request.IsDemand) :
    Related State.SameButPrinter (fun _ => State.SameButPrinter) (· = ·)
      (config.carryOut levels request) ((config.withPrompt prompt').carryOut levels request) := by
  have requests := config.coupled_requests (.anyOutput config.prompt prompt') levels
  unfold Coupling.Indifferent at requests
  rw [State.coupled_anyOutput] at requests
  exact demands_of_requests requests demand

end Config

theorem State.Unasked.linesOf {config : Config} {s t : State} (h : s.Unasked config t) :
    LinesOf s.printer.lines.toList s.printer.captured ∧
      LinesOf (s.printer.lines.toList.filter (· ≠ promptLine)) t.printer.captured := by
  refine ⟨⟨?_, h.free⟩, ?_, fun line member => h.free line (List.mem_filter.mp member).1⟩
  · unfold Printer.captured
    rw [h.keeps]
    rfl
  · unfold Printer.captured
    rw [h.keeps', ← h.lines]
    rfl

/-- **Channels and prompts have no influence.** Two interpreters of a program that have the same
input and the same limit, but may send their output to different places and may or may not ask for
integers, answer every demand of every session with the same value, outcome or fault, and do so in
states that are equal but for their printers; also where one of them does not return, nor does the
other. If both keep their output and only the first one asks, then the output of the second one is
that of the first one without the lines that ask for integers, and of these there are as many as
calls were made that read an integer and passed the check of their arity. -/
theorem channels_and_prompts_are_inert {program : Program} {settings settings' : Settings}
    (input : settings'.input = settings.input) (limit : settings'.depthLimit = settings.depthLimit)
    {first second : Interpreter} (started : Interpreter.start program settings = .ok first)
    (started' : Interpreter.start program settings' = .ok second) {past : List Exchange}
    {t : State} (session : first.config.Session first.state past t) :
    ∃ t', second.config.Session second.state past t' ∧ t.SameButPrinter t' ∧
      (∀ levels (request : Request), request.IsDemand →
        Matching State.SameButPrinter (fun _ => State.SameButPrinter) (· = ·)
          ((first.config.carryOut levels request).run t)
          ((second.config.carryOut levels request).run t')) ∧
      (settings.channel = .buffer → settings'.channel = .buffer → settings.prompt = true →
        settings'.prompt = false →
        (∃ lines, LinesOf lines t.printer.captured) ∧
        ∀ lines, LinesOf lines t.printer.captured →
          LinesOf (lines.filter (· ≠ promptLine)) t'.printer.captured ∧
          lines.count promptLine = first.config.countReads t.journal) := by
  have configs : second.config = first.config.withPrompt settings'.prompt ∧
      first.config.prompt = settings.prompt := by
    unfold Interpreter.start at started started'
    cases surveyed : program.setup with
    | error fault => rw [surveyed] at started; cases started
    | ok setup =>
      rw [surveyed] at started started'
      cases started
      cases started'
      exact ⟨by rw [limit]; rfl, rfl⟩
  have state := Interpreter.state_of_start started
  have state' := Interpreter.state_of_start started'
  have same : first.state.SameButPrinter second.state := by
    rw [state, state', input]
    exact ⟨rfl, rfl, rfl, rfl, rfl⟩
  have demands := first.config.demand_sameButPrinter settings'.prompt
  rw [← configs.1] at demands
  obtain ⟨t', session', same'⟩ := session.alike demands same
  refine ⟨t', session', same', fun levels request demand => demands levels request demand same', ?_⟩
  intro keeps keeps' asks silent
  have unasked : first.state.Unasked first.config second.state := by
    rw [state, state'] at same ⊢
    exact ⟨same, keeps, keeps', rfl, by simp, rfl⟩
  have demands' (levels : Nat) (request : Request) (demand : request.IsDemand) :
      first.config.Parallel (· = ·) (first.config.carryOut levels request)
        (second.config.carryOut levels request) := by
    rw [configs.1, silent]
    exact Config.demands_of_requests (first.config.unasked_requests (configs.2.trans asks) levels)
      demand
  obtain ⟨t'', session'', unasked'⟩ := session.alike demands' unasked
  cases session'.unique session''
  obtain ⟨linesOf, linesOf'⟩ := unasked'.linesOf
  refine ⟨⟨_, linesOf⟩, fun lines other => ?_⟩
  cases other.unique linesOf
  exact ⟨linesOf', unasked'.count⟩

/-- A program that prints the difference of two integers that it reads, and divides by zero
afterwards. -/
def printedDifference : Program where
  names := ⟨⟨#["", "GET", "PRINT", "main"]⟩⟩
  exprs := #[⟨.call ⟨0⟩ [], .int⟩, ⟨.binary .sub ⟨0⟩ ⟨0⟩, .int⟩, ⟨.call ⟨1⟩ [⟨1⟩], .void⟩,
    ⟨.intLit 0, .int⟩, ⟨.binary .div ⟨3⟩ ⟨3⟩, .int⟩]
  stmts := #[.expr ⟨2⟩, .expr ⟨4⟩, .compound [⟨0⟩, ⟨1⟩]]
  vars := #[⟨⟨0⟩, .int, none⟩]
  funcs := #[⟨⟨1⟩, [], .int, none⟩, ⟨⟨2⟩, [⟨0⟩], .void, none⟩, ⟨⟨3⟩, [], .int, some ⟨2⟩⟩]
  topLevel := #[.function ⟨0⟩, .function ⟨1⟩, .function ⟨2⟩]

/-- From the input 9 the program reads past the end, prints 9 and goes wrong. The output has the
two lines more that ask for the integers. -/
theorem channels_and_prompts_are_inert_printedDifference : ∃ first second t t',
    Interpreter.start printedDifference { input := .ofList [9], channel := .buffer } = .ok first ∧
      Interpreter.start printedDifference
        { input := .ofList [9], channel := .buffer, prompt := false } = .ok second ∧
      first.config.Session first.state [⟨9, .run, .error .divisionByZero⟩] t ∧
      second.config.Session second.state [⟨9, .run, .error .divisionByZero⟩] t' ∧
      t.SameButPrinter t' ∧ first.config.countReads t.journal = 2 ∧
      LinesOf [promptLine, promptLine, "9"] t.printer.captured ∧
      LinesOf ["9"] t'.printer.captured := by
  have ran : ∃ first second t,
      Interpreter.start printedDifference { input := .ofList [9], channel := .buffer } =
        .ok first ∧
      Interpreter.start printedDifference
        { input := .ofList [9], channel := .buffer, prompt := false } = .ok second ∧
      (first.config.run 9).Returns first.state (.error .divisionByZero) t ∧
      t.printer.captured = unlines [promptLine, promptLine, "9"] :=
    ⟨_, _, _, rfl, rfl, rfl, rfl⟩
  obtain ⟨first, second, t, started, started', returned, captured⟩ := ran
  have session : first.config.Session first.state [⟨9, .run, .error .divisionByZero⟩] t :=
    .exchange ⟨9, .run, .error .divisionByZero⟩ .start trivial returned
  obtain ⟨t', session', same, -, output⟩ :=
    channels_and_prompts_are_inert (by rfl) (by rfl) started started' session
  have linesOf : LinesOf [promptLine, promptLine, "9"] t.printer.captured :=
    ⟨captured, by decide⟩
  obtain ⟨linesOf', count⟩ := (output rfl rfl rfl rfl).2 _ linesOf
  exact ⟨first, second, t, t', started, started', session, session', same, count.symm, linesOf,
    linesOf'⟩

end CellC
