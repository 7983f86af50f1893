import CellC.Proofs.Correspondence
import CellC.Proofs.Scripts

/-!
# Actions that are blind to input and output

Apart from reading an integer and printing a line, nothing that the machine does has to do with its
input and its output: it does the same whatever they are, and leaves them as they are. So two runs
whose channels differ go the same way as long as every reading is the same on both sides.

## Main definitions

* `State.rewired`: the state with other channels
* `Action.Blind`: the channels make no difference to the action
* `Coupling`: how the channels of two runs may differ
* `State.Coupled`: states that differ in nothing but their channels

## Main results

* `Action.Blind.keeps`: blind actions leave the channels as they are
* `Config.coupled_requests`: requests with coupled channels go the same way
-/

namespace CellC

open CellC.Action (Related Matching)

variable {α β : Type}

/-! ### Blind actions -/

/-- The state with other channels. -/
def State.rewired (s : State) (input : Input) (printer : Printer) : State :=
  { s with input, printer }

/-- Other channels leave memory as it is. -/
@[simp] theorem State.heap_rewired (s : State) (input : Input) (printer : Printer) :
    (s.rewired input printer).heap = s.heap := rfl

namespace Action

/-- A result with other channels. -/
def rewire (input : Input) (printer : Printer) :
    EStateM.Result Halt State α → EStateM.Result Halt State α
  | .ok a s => .ok a (s.rewired input printer)
  | .error halt s => .error halt (s.rewired input printer)

/-- The channels make no difference to the action. -/
def Blind (action : Action α) : Prop :=
  ∀ s input printer, action.run (s.rewired input printer) = rewire input printer (action.run s)

namespace Blind

protected theorem pure (a : α) : Blind (pure a) := fun _ _ _ => rfl

protected theorem throw (halt : Halt) : Blind (throw halt : Action α) := fun _ _ _ => rfl

theorem fail (fault : Fault) : Blind (Action.fail fault : Action α) := fun _ _ _ => rfl

theorem ofOption (option : Option α) : Blind (Action.ofOption option) := by
  cases option with
  | none => exact .throw .dangling
  | some a => exact .pure a

theorem ofExcept (outcome : Except Fault α) : Blind (Action.ofExcept outcome) := by
  cases outcome with
  | ok a => exact .pure a
  | error fault => exact fail fault

protected theorem bind {action : Action α} {next : α → Action β} (first : Blind action)
    (rest : ∀ a, Blind (next a)) : Blind (action >>= next) := by
  intro s input printer
  rw [EStateM.run_bind, EStateM.run_bind, first s input printer]
  cases action.run s with
  | ok a t => exact rest a t input printer
  | error halt t => rfl

/-- What looks at the state may not look at the channels. -/
theorem get {next : State → Action α}
    (same : ∀ s input printer, next (s.rewired input printer) = next s)
    (rest : ∀ s, Blind (next s)) : Blind (MonadState.get >>= next) := by
  intro s input printer
  rw [run_get_bind, run_get_bind, same]
  exact rest s s input printer

/-- A change of the state that other channels do not affect is blind. -/
protected theorem modify {f : State → State}
    (same : ∀ s input printer, f (s.rewired input printer) = (f s).rewired input printer) :
    Blind (modify f : Action Unit) := by
  intro s input printer
  exact congrArg (EStateM.Result.ok ()) (same s input printer)

theorem emit (event : Event) : Blind (Action.emit event) := .modify fun _ _ _ => rfl

theorem modifyTop (f : Frame → Frame) : Blind (Action.modifyTop f) := .modify fun _ _ _ => rfl

theorem modifyRoot (f : Frame → Frame) : Blind (Action.modifyRoot f) := .modify fun _ _ _ => rfl

/-- Loading looks at memory alone. -/
theorem load (address : Address) (width : Nat) : Blind (Action.load address width) :=
  get (fun _ _ _ => rfl) fun _ => ofExcept _

theorem store (address : Address) (width : Nat) (cell : Cell) :
    Blind (Action.store address width cell) := by
  intro s input printer
  rw [run_store, run_store, State.heap_rewired]
  cases s.heap.store address width cell <;> rfl

/-- An allocation looks at memory alone. -/
theorem allocate (size : Cell) (purpose : Purpose) : Blind (Action.allocate size purpose) := by
  intro s input printer
  rw [run_allocate, run_allocate, State.heap_rewired]
  cases s.heap.allocate size purpose <;> rfl

theorem release (address : Address) : Blind (Action.release address) := by
  intro s input printer
  rw [run_release, run_release]
  rfl

/-- Popping a frame looks at frames and memory alone. -/
theorem popFrame : Blind Action.popFrame := by
  intro s input printer
  cases found : s.stack.calls with
  | nil => rw [run_popFrame_nil found, run_popFrame_nil (s := s.rewired input printer) found]; rfl
  | cons frame calls =>
    rw [run_popFrame_cons found, run_popFrame_cons (s := s.rewired input printer) found]
    rfl

theorem newArray (size : Cell) : Blind (Action.newArray size) :=
  (allocate size .array).bind fun _ => (modifyTop _).bind fun _ => .pure _

/-- Blind actions leave the channels as they are. -/
theorem keeps {action : Action α} (blind : Blind action) {s t : State} {result : Except Fault α}
    (returned : action.Returns s result t) : t.input = s.input ∧ t.printer = s.printer := by
  have same := blind s s.input s.printer
  unfold Returns at returned
  rw [show s.rewired s.input s.printer = s from rfl, returned] at same
  have states : t = t.rewired s.input s.printer := by
    cases result with
    | ok a => exact (EStateM.Result.ok.inj same).2
    | error fault => exact (EStateM.Result.error.inj same).2
  have input : t.input = (t.rewired s.input s.printer).input := congrArg State.input states
  have printer : t.printer = (t.rewired s.input s.printer).printer := congrArg State.printer states
  exact ⟨input, printer⟩

end Blind

end Action

/-- The operation has nothing to do with the channels. -/
def Operation.IsBlind : Operation → Prop
  | println _ | read => False
  | _ => True

namespace Config

open CellC.Action (Blind)

variable (config : Config)

/-- Variables have their values in frames. -/
theorem blind_varValue (var : VarId) : Blind (config.varValue var) := by
  refine .get (fun _ _ _ => rfl) fun s => ?_
  cases config.visibleValue? s.stack var with
  | some value => exact .pure value
  | none => exact .fail _

theorem blind_assignVar (var : VarId) (value : Value) : Blind (config.assignVar var value) := by
  refine .get (fun _ _ _ => rfl) fun s => ?_
  split
  · exact .modifyRoot _
  · exact .modifyTop _

theorem blind_loadAt (address : Address) (type : TypeId) : Blind (config.loadAt address type) := by
  unfold loadAt
  split
  · exact .pure _
  · exact (Blind.load address _).bind fun _ => .pure _

theorem blind_storeAt (address : Address) (type : TypeId) (value : Value) :
    Blind (config.storeAt address type value) :=
  .store address _ _

theorem blind_checkDepth : Blind config.checkDepth := by
  unfold checkDepth
  cases config.depthLimit with
  | none => exact .pure ()
  | some limit =>
    refine .get (fun _ _ _ => rfl) fun s => ?_
    split
    · exact .fail _
    · exact .pure ()

/-- Every operation is blind but to read an integer and to print a line. -/
theorem blind_perform {operation : Operation} (blind : operation.IsBlind) :
    Blind (config.perform operation) := by
  cases operation with
  | expr | stmt | var | func => exact .ofOption _
  | fail fault => exact .fail fault
  | compute outcome => exact .ofExcept outcome
  | note event => exact .emit event
  | varValue var => exact config.blind_varValue var
  | assignVar var value => exact config.blind_assignVar var value
  | bind | record | returning => exact .modifyTop _
  | load address type => exact config.blind_loadAt address type
  | store address type value => exact config.blind_storeAt address type value
  | newArray size => exact .newArray size
  | allocate size => exact .allocate size .explicit
  | release address => exact .release address
  | println | read => exact blind.elim
  | checkDepth => exact config.blind_checkDepth
  | globalsReady => exact .get (fun _ _ _ => rfl) fun _ => .pure _
  | setGlobalsReady => exact .modify fun _ _ _ => rfl

end Config

/-! ### Coupled channels -/

/-- The printer once an integer is asked for, with a line or without one. -/
def Printer.prompted (prompt : Bool) (printer : Printer) : Printer :=
  if prompt then printer.println promptLine else printer

/-- How the channels of two runs may differ, of which the one asks for integers with a line if
`prompt` holds and the other if `prompt'` does: both have to get the same readings. -/
structure Coupling (prompt prompt' : Bool) where
  inputs : Input → Input → Prop
  printers : Printer → Printer → Prop
  read : ∀ {a b}, inputs a b → a.read.1 = b.read.1 ∧ inputs a.read.2 b.read.2
  println : ∀ {p q} line, printers p q → printers (p.println line) (q.println line)
  prompted : ∀ {p q}, printers p q → printers (p.prompted prompt) (q.prompted prompt')

variable {prompt prompt' : Bool} (coupling : Coupling prompt prompt')

/-- States that differ in nothing but their channels, which are coupled. -/
structure State.Coupled (s t : State) : Prop where
  inputs : coupling.inputs s.input t.input
  printers : coupling.printers s.printer t.printer
  rest : t = s.rewired t.input t.printer

namespace Coupling

/-- From coupled states the actions go the same way. -/
abbrev Indifferent (V : α → β → Prop) (action : Action α) (other : Action β) : Prop :=
  Related (State.Coupled coupling) (fun _ => State.Coupled coupling) V action other

variable {coupling}

/-- What does not look at the channels is the same on both sides. -/
theorem coupled_of_blind {action : Action α} (blind : action.Blind) :
    coupling.Indifferent (· = ·) action action := by
  intro s t h
  rw [h.rest, blind]
  have coupled (result : Except Fault α) {s' : State} (returned : action.Returns s result s') :
      s'.Coupled coupling (s'.rewired t.input t.printer) := by
    obtain ⟨input, printer⟩ := blind.keeps returned
    exact ⟨input ▸ h.inputs, printer ▸ h.printers, rfl⟩
  cases ran : action.run s with
  | ok a s' => exact .ok rfl (coupled (.ok a) ran)
  | error halt s' =>
    cases halt with
    | fault fault => exact .fault (coupled (.error fault) ran)
    | dangling => exact .dangling
    | exhausted => exact .exhausted

/-- Both sides print the same line. -/
theorem coupled_println (line : String) :
    coupling.Indifferent (· = ·) (Action.println line) (Action.println line) := by
  intro s t h
  exact .ok rfl ⟨h.inputs, coupling.println line h.printers, by rw [h.rest]; rfl⟩

/-- Both sides read the same integer, each from its own channel. -/
theorem coupled_readInteger :
    coupling.Indifferent (· = ·) Action.readInteger Action.readInteger := by
  intro s t h
  obtain ⟨same, rest⟩ := coupling.read h.inputs
  have after : State.Coupled coupling { s with input := s.input.read.2 }
      { t with input := t.input.read.2 } := ⟨rest, h.printers, by rw [h.rest]; rfl⟩
  unfold Action.readInteger
  rw [EStateM.run_bind, EStateM.run_bind, EStateM.run_modifyGet, EStateM.run_modifyGet]
  dsimp only
  rw [same]
  cases t.input.read.1 with
  | value n => exact .ok rfl after
  | unavailable => exact .ok rfl after
  | malformed word error =>
    exact (coupled_of_blind ((Action.Blind.emit _).bind fun _ => .pure none)) after

end Coupling

namespace Config

/-- The same configuration with or without lines that ask for integers. -/
def withPrompt (config : Config) (prompt : Bool) : Config := { config with prompt }

variable {config : Config} {coupling : Coupling config.prompt prompt'}

open Coupling

/-- Where an integer is read, it is asked for first, in the way of the configuration. -/
theorem primitiveCall_read (config : Config) (values : List Value) (type : TypeId) :
    config.primitiveCall .read values type = (do
      checkArity Primitive.read.name Primitive.read.arity values.length
      modify fun state => { state with printer := state.printer.prompted config.prompt }
      config.readValue type) := by
  refine bind_congr fun _ => ?_
  unfold Printer.prompted
  dsimp only
  split
  · rfl
  · rfl

/-- A primitive does the same on both sides but for the line that asks for input. -/
theorem coupled_dispatchPrimitive (id : ExprId) (primitive : Primitive) (values : List Value)
    (type : TypeId) :
    coupling.Indifferent (· = ·) (config.dispatchPrimitive id primitive values type)
      ((config.withPrompt prompt').dispatchPrimitive id primitive values type) := by
  have arity (name : String) (expected got : Nat) : coupling.Indifferent (· = ·)
      (checkArity name expected got) (checkArity name expected got) :=
    related_checkArity (fun _ _ _ _ start => start) name expected got
  have read : coupling.Indifferent (· = ·) (config.readValue type)
      ((config.withPrompt prompt').readValue type) := by
    refine coupled_readInteger.bind_eq fun n => ?_
    cases n with
    | some n => exact .pure rfl
    | none => exact (coupled_of_blind (.emit _)).bind_eq fun _ => .pure rfl
  refine (coupled_of_blind (.emit _)).bind_eq fun _ => ?_
  cases primitive with
  | read =>
    rw [primitiveCall_read, primitiveCall_read]
    refine (arity _ _ _).bind_eq fun _ => (Related.modify fun s t h => ?_).bind_eq fun _ => read
    exact ⟨h.inputs, coupling.prompted h.printers, by rw [h.rest]; rfl⟩
  | print =>
    exact (arity _ _ _).bind_eq fun _ => (coupled_println _).bind_eq fun _ => .pure rfl
  | allocate =>
    refine (arity _ _ _).bind_eq fun _ => ?_
    exact (coupled_of_blind (.allocate _ _)).bind_eq fun _ => .pure rfl
  | free =>
    refine (arity _ _ _).bind_eq fun _ => ?_
    exact (coupled_of_blind (.release _)).discard.bind_eq fun _ => .pure rfl

variable (coupling) in
/-- Runs with coupled channels go the same way, also if they go wrong. -/
theorem correspondence_coupled :
    Correspondence config (config.withPrompt prompt') (fun _ : Unit => State.Coupled coupling)
      (fun _ _ => State.Coupled coupling) (· = ·) where
  program := rfl
  setup := rfl
  refl _ := rfl
  cell := congrArg Value.cell
  fault _ start := start
  remark _ event _ := coupled_of_blind (.emit event)
  varValue _ var := coupled_of_blind (config.blind_varValue var)
  assignVar _ var value := coupled_of_blind (config.blind_assignVar var value)
  loadAt _ address type := coupled_of_blind (config.blind_loadAt address type)
  storeAt _ address type value := coupled_of_blind (config.blind_storeAt address type value)
  record _ expr _ _ same := same ▸ coupled_of_blind (.modifyTop _)
  bind _ var value := coupled_of_blind (.modifyTop _)
  returning _ _ _ same := same ▸ coupled_of_blind (.modifyTop _)
  newArray _ size := coupled_of_blind (.newArray size)
  primitive _ id _ _ type primitive values _ _ _ related := by
    rw [List.forall₂_eq_eq_eq] at related
    exact related ▸ coupled_dispatchPrimitive id primitive values type
  dispatch _ _ _ _ _ _ _ _ _ related := by
    rw [List.forall₂_eq_eq_eq] at related
    exact related ▸ coupled_of_blind (.emit _)
  checkDepth _ := coupled_of_blind config.blind_checkDepth
  activation _ exec exec' params values values' body bodies cells := by
    intro s t h
    have entered : s.entered.Coupled coupling t.entered :=
      ⟨h.inputs, h.printers, by rw [h.rest]; rfl⟩
    refine matching_activation (I := State.Coupled coupling) (F := fun _ => State.Coupled coupling)
      entered ?_ (fun _ _ inside => coupled_of_blind .popFrame inside)
      (fun _ _ _ inside => (coupled_of_blind .popFrame).weaken (fun _ _ _ => trivial) inside)
    have program : (config.withPrompt prompt').program = config.program := rfl
    exact related_boundBody program (fun _ _ => coupled_of_blind (.modifyTop _)) params cells
      (bodies () body)

variable (coupling) in
/-- Whole runs do the same on both sides. -/
theorem coupled_run (levels : Nat) :
    coupling.Indifferent (· = ·) (config.run levels) ((config.withPrompt prompt').run levels) := by
  have rules := correspondence_coupled coupling
  refine rules.running (i := ()) (rules.eval levels ()) (fun s t h => ?_) (fun s t h => ?_)
    (fun callee _ _ => ?_) (fun _ _ same => same ▸ coupled_of_blind (.emit _))
  · rw [h.rest]
    rfl
  · exact ⟨h.inputs, h.printers, by rw [h.rest]; rfl⟩
  · exact rules.functionCall (i := ()) (rules.exec levels) callee

variable (coupling) in
/-- From states whose channels are coupled, evaluations, executions and runs go the same way. -/
theorem coupled_requests (levels : Nat) :
    (∀ id, coupling.Indifferent (· = ·) (CellC.eval config levels id)
      (CellC.eval (config.withPrompt prompt') levels id)) ∧
    (∀ id, coupling.Indifferent (· = ·) (CellC.exec config levels id)
      (CellC.exec (config.withPrompt prompt') levels id)) ∧
    coupling.Indifferent (· = ·) (config.run levels) ((config.withPrompt prompt').run levels) := by
  have rules := correspondence_coupled coupling
  refine ⟨rules.eval levels (), ?_, coupled_run coupling levels⟩
  rw [← Completion.related_eq]
  exact rules.exec levels ()

end Config

end CellC
