import CellC.Proofs.Output.Discretion
import CellC.Proofs.Output.Lines
import CellC.Proofs.Sessions

/-!
# What is printed

Output that is kept consists of the integers of the calls that print, each on a line of its own and
in the order of these calls, and of lines that ask for integers.

## Main definitions

* `Config.prints`: the integers that the calls in a journal print
* `State.Prints`: the output is in accordance with the journal

## Main results

* `Config.Session.prints`: output that is kept is in accordance with the journal
* `State.Prints.captured`: the text that is kept if no line asks for an integer
-/

namespace CellC

open CellC.Action (Settles)

variable {α β : Type}

/-- The integer that a call of a primitive prints. -/
def printed? : Primitive × List Value → Option Cell
  | (.print, [value]) => some value.cell
  | _ => none

/-- The integers that the calls in a journal print, the first one first. -/
def Config.prints (config : Config) (journal : Array Event) : List Cell :=
  (config.primitiveCalls journal).filterMap printed?

/-- The output is kept, and apart from lines that ask for integers it consists of the integers that
were printed. -/
structure State.Prints (config : Config) (s : State) : Prop where
  keeps : s.printer.channel = .buffer
  lines : s.printer.lines.toList.filter (· ≠ promptLine) =
    (config.prints s.journal).map Cell.text

/-- If no line asks for an integer, the text that is kept consists of the integers that were
printed. -/
theorem State.Prints.captured {config : Config} {s : State} (h : s.Prints config)
    (unasked : promptLine ∉ s.printer.lines) :
    LinesOf ((config.prints s.journal).map Cell.text) s.printer.captured := by
  have all : s.printer.lines.toList.filter (· ≠ promptLine) = s.printer.lines.toList :=
    List.filter_eq_self.mpr fun line member =>
      decide_eq_true fun asks => unasked (Array.mem_toList_iff.mp (asks ▸ member))
  constructor
  · unfold Printer.captured Printer.text
    rw [h.keeps, ← h.lines, all]
  · intro line member
    obtain ⟨cell, -, rfl⟩ := List.mem_map.mp member
    exact cell.text_free

namespace Config

variable {config : Config}

theorem prints_dispatch {id : ExprId} {callee : FuncId} {args : List ExprId} {type : TypeId}
    {primitive : Primitive} (found : config.program.expr? id = some ⟨.call callee args, type⟩)
    (declared : config.setup.primitive? callee = some primitive) (values : List Value)
    (journal : Array Event) :
    config.prints (journal.push (.dispatch id values)) =
      config.prints journal ++ (printed? (primitive, values)).toList := by
  unfold prints
  rw [primitiveCalls_push, config.called?_dispatch found, declared, List.filterMap_append]
  cases printed : printed? (primitive, values) <;> simp [printed]

/-! ### Steps -/

/-- The action keeps the output in accordance with the journal. -/
def Faithful (config : Config) (action : Action α) : Prop :=
  ∀ s, s.Prints config → Settles (State.Prints config) (fun _ => State.Prints config) (action.run s)

namespace Faithful

protected theorem bind {action : Action α} {next : α → Action β} (first : config.Faithful action)
    (rest : ∀ a, config.Faithful (next a)) : config.Faithful (action >>= next) :=
  fun s start => (first s start).bind rest

theorem related {action : Action α} (faithful : config.Faithful action) :
    Action.Related (fun s t => s = t ∧ s.Prints config) (fun _ s t => s = t ∧ s.Prints config)
      (· = ·) action action :=
  Action.related_self faithful

end Faithful

theorem Discreet.faithful {action : Action α} (discreet : config.Discreet action) :
    config.Faithful action := by
  intro s start
  have prints (result : Except Fault α) {t : State} (returned : action.Returns s result t) :
      t.Prints config := by
    obtain ⟨-, printer, same⟩ := discreet.keeps returned
    refine ⟨printer ▸ start.keeps, ?_⟩
    unfold Config.prints
    rw [printer, same]
    exact start.lines
  cases ran : action.run s with
  | ok a t => exact .ok (prints (.ok a) ran)
  | error halt t =>
    cases halt with
    | fault fault => exact .fault (prints (.error fault) ran)
    | dangling => exact .dangling
    | exhausted => exact .exhausted

theorem Discreet.checkArity (name : String) (expected got : Nat) :
    config.Discreet (checkArity name expected got) := by
  unfold Config.checkArity
  split
  · exact .pure ()
  · exact .fail _

/-- An integer is read without a line. -/
theorem faithful_readValue (type : TypeId) : config.Faithful (config.readValue type) := by
  have read : config.Faithful Action.readInteger := by
    intro s start
    have after : State.Prints config { s with input := s.input.read.2 } :=
      ⟨start.keeps, start.lines⟩
    unfold Action.readInteger
    rw [EStateM.run_bind, EStateM.run_modifyGet]
    dsimp only
    cases s.input.read.1 with
    | value n => exact .ok after
    | unavailable => exact .ok after
    | malformed word error =>
      exact ((Discreet.remark rfl).bind fun _ => .pure none).faithful _ after
  refine read.bind fun n => ?_
  cases n with
  | some n => exact (Discreet.pure _).faithful
  | none => exact ((Discreet.remark rfl).bind fun _ => .pure _).faithful

/-- What a call of a primitive does that prints nothing is in accordance with the journal. -/
theorem faithful_primitiveCall {primitive : Primitive} {values : List Value}
    (other : printed? (primitive, values) = none) (type : TypeId) :
    config.Faithful (config.primitiveCall primitive values type) := by
  cases primitive with
  | print =>
    have arity : values.length ≠ Primitive.print.arity := by
      intro single
      obtain ⟨value, rfl⟩ := List.length_eq_one_iff.mp single
      cases other
    unfold primitiveCall Config.checkArity
    rw [if_neg arity]
    exact fun s start => .fault start
  | read =>
    rw [primitiveCall_read]
    refine (Discreet.checkArity _ _ _).faithful.bind fun _ => ?_
    refine Faithful.bind (fun s start => .ok ?_) fun _ => faithful_readValue type
    dsimp only [Printer.prompted]
    split
    · exact ⟨by simp [Printer.println, start.keeps],
        by simpa [Printer.println, start.keeps] using start.lines⟩
    · exact start
  | allocate =>
    refine (Discreet.checkArity _ _ _).faithful.bind fun _ => ?_
    exact ((Discreet.allocate _ _).bind fun _ => .pure _).faithful
  | free =>
    refine (Discreet.checkArity _ _ _).faithful.bind fun _ => ?_
    dsimp only
    rw [Action.discard_bind]
    exact ((Discreet.release _).bind fun _ => .pure _).faithful

/-- A call that prints is announced together with the line that it adds. -/
theorem faithful_dispatchPrimitive {id : ExprId} {callee : FuncId} {args : List ExprId}
    {type : TypeId} {primitive : Primitive}
    (found : config.program.expr? id = some ⟨.call callee args, type⟩)
    (declared : config.setup.primitive? callee = some primitive) (values : List Value) :
    config.Faithful (config.dispatchPrimitive id primitive values type) := by
  intro s start
  have calls := prints_dispatch found declared values s.journal
  -- Between the announcement and the line the journal is ahead of the output, so that a call which
  -- prints has to be looked at as a whole.
  cases printed : printed? (primitive, values) with
  | none =>
    rw [printed] at calls
    refine faithful_primitiveCall printed type _ ⟨start.keeps, ?_⟩
    dsimp only
    rw [calls, start.lines]
    simp
  | some cell =>
    unfold printed? at printed
    split at printed
    · next value same =>
      cases same
      cases printed
      refine .ok ⟨?_, ?_⟩
      · simp [Printer.println, start.keeps]
      · dsimp only
        rw [calls, List.map_append, ← start.lines]
        simp [Printer.println, start.keeps, Cell.text_ne_promptLine, printed?]
    · cases printed

/-! ### Requests -/

/-- Every step of a run keeps the output in accordance with the journal. -/
theorem correspondence_prints (config : Config) :
    Correspondence config config (fun (_ : Unit) s t => s = t ∧ s.Prints config)
      (fun _ _ s t => s = t ∧ s.Prints config) (· = ·) where
  program := rfl
  setup := rfl
  refl _ := rfl
  cell := congrArg Value.cell
  fault _ start := start
  remark _ _ plain := (Discreet.remark plain).faithful.related
  varValue _ var := (Discreet.varValue var).faithful.related
  assignVar _ var value := (Discreet.assignVar var value).faithful.related
  loadAt _ address type := (Discreet.loadAt address type).faithful.related
  storeAt _ address type value := (Discreet.storeAt address type value).faithful.related
  record _ _ _ _ same := same ▸ (Discreet.modifyTop _).faithful.related
  bind _ _ _ := (Discreet.modifyTop _).faithful.related
  returning _ _ _ same := same ▸ (Discreet.modifyTop _).faithful.related
  newArray _ size := (Discreet.newArray size).faithful.related
  primitive _ _ _ _ type _ values _ found declared same := by
    rw [List.forall₂_eq_eq_eq] at same
    exact same ▸ (faithful_dispatchPrimitive found declared values).related
  dispatch _ id callee _ _ values _ found declared same := by
    rw [List.forall₂_eq_eq_eq] at same
    have other : config.called? (.dispatch id values) = none := by
      rw [config.called?_dispatch found, declared]
      rfl
    exact same ▸ (Discreet.emit other).faithful.related
  checkDepth _ := Discreet.checkDepth.faithful.related
  activation _ exec exec' params values values' body bodies cells := by
    rintro s _ ⟨rfl, start⟩
    have entered : s.entered.Prints config := by
      refine ⟨start.keeps, ?_⟩
      have same : config.prints s.entered.journal = config.prints s.journal := by
        unfold State.entered Config.prints
        rw [primitiveCalls_push]
        simp [called?]
      rw [same]
      exact start.lines
    refine matching_activation (I := fun s t => s = t ∧ s.Prints config)
      (F := fun _ s t => s = t ∧ s.Prints config) ⟨rfl, entered⟩ ?_
      (fun _ _ inside => Discreet.popFrame.faithful.related inside)
      (fun _ _ _ inside => Discreet.popFrame.faithful.related.weaken (fun _ _ _ => trivial) inside)
    exact related_boundBody rfl (fun _ _ => (Discreet.modifyTop _).faithful.related) params cells
      (bodies () body)

/-- Demands keep the output in accordance with the journal. -/
theorem prints_of_demand (config : Config) {levels : Nat} {request : Request}
    (demand : request.IsDemand) {s t : State} {result : Except Fault request.Answer}
    (returned : (config.carryOut levels request).Returns s result t) (start : s.Prints config) :
    t.Prints config := by
  have rules := config.correspondence_prints
  have requests :
      Action.Related (fun s t => s = t ∧ s.Prints config) (fun _ s t => s = t ∧ s.Prints config)
        (· = ·) (config.carryOut levels request) (config.carryOut levels request) := by
    refine demands_of_requests ⟨rules.eval levels (), ?_, ?_⟩ demand
    · rw [← Completion.related_eq]
      exact rules.exec levels ()
    · refine rules.running (i := ()) (rules.eval levels ()) ?_ ?_
        (fun callee _ _ => rules.functionCall (i := ()) (rules.exec levels) callee)
        (fun _ _ same => same ▸ (Discreet.remark rfl).faithful.related)
      · rintro s _ ⟨rfl, -⟩
        rfl
      · rintro s _ ⟨rfl, start⟩
        exact ⟨rfl, start.keeps, start.lines⟩
  have matching := requests ⟨rfl, start⟩
  unfold Action.Returns at returned
  rw [returned] at matching
  cases result with
  | ok a => cases matching with | ok _ after => exact after.2
  | error fault => cases matching with | fault after => exact after.2

/-- Output that is kept from the start is in accordance with the journal, whatever is asked for. -/
theorem Session.prints {program : Program} {settings : Settings} {interpreter : Interpreter}
    (started : Interpreter.start program settings = .ok interpreter)
    (keeps : settings.channel = .buffer) {past : List Exchange} {t : State}
    (session : interpreter.config.Session interpreter.state past t) :
    t.Prints interpreter.config := by
  induction session with
  | start =>
    rw [Interpreter.state_of_start started]
    exact ⟨keeps, rfl⟩
  | exchange exchange _ demand returned ih => exact prints_of_demand _ demand returned ih

end Config

end CellC
