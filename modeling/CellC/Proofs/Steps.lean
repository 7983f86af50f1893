import CellC.Proofs.Correspondence

/-!
# Properties kept by every step

A property of states that every step of the machine keeps is kept by every evaluation, execution and
run. It is stated here for relations between the states before and after, as most properties compare
the two.

The relation has to survive the pushing of a frame and the popping together, so that it may say what
it likes about the frames of an activation that has ended.

## Main definitions

* `Config.Steps`: the single steps of the machine keep a relation
* `Config.Closed`: a relation that activations keep as well
* `Config.Outcome`: what a relation says about a return

## Main results

* `Config.Closed.eval`, `Config.Closed.exec`, `Config.Closed.run`: what a closed relation says about
  whole trees
* `Config.Closed.functionCall_of`: what it says about calls
* `Config.Closed.correspondence`: evaluations agree with themselves where a predicate holds
-/

namespace CellC

open CellC.Action (Related)

variable {α : Type}

/-- A result whose state has `P`, or `Q fault` if the action went wrong. -/
inductive Action.Settles (P : State → Prop) (Q : Fault → State → Prop) :
    EStateM.Result Halt State α → Prop
  | ok {a s} : P s → Settles P Q (.ok a s)
  | fault {fault s} : Q fault s → Settles P Q (.error (.fault fault) s)
  | dangling {s} : Settles P Q (.error .dangling s)
  | exhausted {s} : Settles P Q (.error .exhausted s)

/-- Actions in sequence settle if each of them does. -/
theorem Action.Settles.bind {β : Type} {P P' : State → Prop} {Q : Fault → State → Prop}
    {action : Action α} {next : α → Action β} {s : State}
    (first : Action.Settles P Q (action.run s))
    (rest : ∀ a s', P s' → Action.Settles P' Q ((next a).run s')) :
    Action.Settles P' Q ((action >>= next).run s) := by
  rw [EStateM.run_bind]
  generalize action.run s = result at first
  cases first with
  | ok kept => exact rest _ _ kept
  | fault kept => exact .fault kept
  | dangling => exact .dangling
  | exhausted => exact .exhausted

/-- A result matches itself in what is known of its state. -/
theorem Action.Settles.matching {P : State → Prop} {Q : Fault → State → Prop} {V : α → α → Prop}
    (refl : ∀ a, V a a) {result : EStateM.Result Halt State α}
    (settled : Action.Settles P Q result) :
    Action.Matching (fun s t => s = t ∧ P s) (fun fault s t => s = t ∧ Q fault s) V result
      result := by
  cases settled with
  | ok kept => exact .ok (refl _) ⟨rfl, kept⟩
  | fault kept => exact .fault ⟨rfl, kept⟩
  | dangling => exact .dangling
  | exhausted => exact .exhausted

/-- An action is related to itself between equal states if it preserves what is known of them. -/
theorem Action.related_self {P : State → Prop} {Q : Fault → State → Prop} {action : Action α}
    (settles : ∀ s, P s → Action.Settles P Q (action.run s)) :
    Related (fun s t => s = t ∧ P s) (fun fault s t => s = t ∧ Q fault s) (· = ·) action
      action := by
  rintro s _ ⟨rfl, start⟩
  exact (settles s start).matching fun _ => rfl

open CellC.Action (Settles)

namespace Config

/-- Every single step of the machine, taken from any state, keeps the relation `R`. -/
structure Steps (config : Config) (R : State → State → Prop) : Prop where
  remark : ∀ s {event : Event}, event.IsRemark = true →
    R s { s with journal := s.journal.push event }
  bind : ∀ s var value, R s { s with stack := s.stack.modifyTop (·.bind var value) }
  bindRoot : ∀ s var value, config.setup.hasFileScope var = true →
    R s { s with stack := s.stack.modifyRoot (·.bind var value) }
  record : ∀ s expr value, R s { s with stack := s.stack.modifyTop (·.record expr value) }
  returning : ∀ s value, R s { s with stack := s.stack.modifyTop (·.returning value) }
  store : ∀ s address width cell heap, s.heap.store address width cell = .ok heap →
    R s { s with heap }
  newArray : ∀ s size base heap, s.heap.allocate size .array = .ok (base, heap) →
    R s { s with
      heap
      stack := s.stack.modifyTop (·.adopt base)
      journal := s.journal.push (.allocate base size.toInt.toNat .array) }
  newBlock : ∀ s size base heap, s.heap.allocate size .explicit = .ok (base, heap) →
    R s { s with
      heap
      journal := s.journal.push (.allocate base size.toInt.toNat .explicit) }
  /-- Whatever is dispatched, except a call of `FREE` that is about to release its argument. -/
  dispatch : ∀ s id callee args type (values : List Value),
    config.program.expr? id = some ⟨.call callee args, type⟩ →
    (config.setup.primitive? callee = some .free → values.length ≠ 1) →
    R s { s with journal := s.journal.push (.dispatch id values) }
  free : ∀ s id callee args type (value : Value),
    config.program.expr? id = some ⟨.call callee args, type⟩ →
    config.setup.primitive? callee = some .free →
    R s { s with
      heap := s.heap.remove value.address
      journal := (s.journal.push (.dispatch id [value])).push
        (Action.releaseEvent s.heap value.address) }
  println : ∀ s line, R s { s with printer := s.printer.println line }
  read : ∀ s, R s { s with input := s.input.read.2 }

/-- Steps that keep two relations keep both of them together. -/
theorem Steps.and {config : Config} {R T : State → State → Prop} (first : config.Steps R)
    (second : config.Steps T) : config.Steps fun s t => R s t ∧ T s t where
  remark s _ plain := ⟨first.remark s plain, second.remark s plain⟩
  bind s var value := ⟨first.bind s var value, second.bind s var value⟩
  bindRoot s var value scope :=
    ⟨first.bindRoot s var value scope, second.bindRoot s var value scope⟩
  record s expr value := ⟨first.record s expr value, second.record s expr value⟩
  returning s value := ⟨first.returning s value, second.returning s value⟩
  store s _ _ _ heap stored := ⟨first.store s _ _ _ heap stored, second.store s _ _ _ heap stored⟩
  newArray s _ _ heap made := ⟨first.newArray s _ _ heap made, second.newArray s _ _ heap made⟩
  newBlock s _ _ heap made := ⟨first.newBlock s _ _ heap made, second.newBlock s _ _ heap made⟩
  dispatch s id callee args type values found other :=
    ⟨first.dispatch s id callee args type values found other,
      second.dispatch s id callee args type values found other⟩
  free s id callee args type value found free :=
    ⟨first.free s id callee args type value found free,
      second.free s id callee args type value found free⟩
  println s line := ⟨first.println s line, second.println s line⟩
  read s := ⟨first.read s, second.read s⟩

namespace Steps

variable {config : Config} {R : State → State → Prop} {P : State → Prop}
  {Q : Fault → State → Prop} (steps : config.Steps R)
  (closed : ∀ s s', P s → R s s' → P s')
  (faulty : ∀ fault s, fault ≠ .noCall → P s → Q fault s)
include steps closed

theorem settles_emit {event : Event} (plain : event.IsRemark = true) (s : State) (start : P s) :
    Settles P Q ((Action.emit event).run s) :=
  .ok (closed s _ start (steps.remark s plain))

theorem settles_assignVar (var : VarId) (value : Value) (s : State) (start : P s) :
    Settles P Q ((config.assignVar var value).run s) := by
  unfold Config.assignVar
  rw [Action.run_get_bind]
  split
  · next scope =>
    rw [Bool.and_eq_true] at scope
    exact .ok (closed s _ start (steps.bindRoot s var value scope.1))
  · exact .ok (closed s _ start (steps.bind s var value))

theorem settles_readInteger (s : State) (start : P s) : Settles P Q (Action.readInteger.run s) := by
  have read := closed s _ start (steps.read s)
  unfold Action.readInteger
  rw [EStateM.run_bind, EStateM.run_modifyGet]
  dsimp only
  cases s.input.read.1 with
  | value n => exact .ok read
  | unavailable => exact .ok read
  | malformed word error => exact .ok (closed _ _ read (steps.remark _ rfl))

theorem settles_readValue (type : TypeId) (s : State) (start : P s) :
    Settles P Q ((config.readValue type).run s) := by
  refine (steps.settles_readInteger closed s start).bind fun n s' kept => ?_
  cases n with
  | some n => exact .ok kept
  | none => exact (steps.settles_emit closed rfl s' kept).bind fun _ _ kept => .ok kept

include faulty

theorem settles_storeAt (address : Address) (type : TypeId) (value : Value) (s : State)
    (start : P s) : Settles P Q ((config.storeAt address type value).run s) := by
  unfold Config.storeAt
  rw [Action.run_store]
  cases stored : s.heap.store address (config.types.width type) value.cell with
  | ok heap => exact .ok (closed s _ start (steps.store s _ _ _ heap stored))
  | error fault =>
    obtain rfl := Heap.eq_badAddress_of_store stored
    exact .fault (faulty _ s (by simp) start)

omit steps closed in
theorem settles_loadAt (address : Address) (type : TypeId) (s : State) (start : P s) :
    Settles P Q ((config.loadAt address type).run s) := by
  unfold Config.loadAt
  split
  · exact .ok start
  rw [EStateM.run_bind, Action.run_load]
  cases loaded : s.heap.load address (config.types.width type) with
  | ok cell => exact .ok start
  | error fault =>
    obtain rfl := Heap.eq_badAddress_of_load loaded
    exact .fault (faulty _ s (by simp) start)

omit steps closed in
theorem settles_varValue (var : VarId) (s : State) (start : P s) :
    Settles P Q ((config.varValue var).run s) := by
  unfold Config.varValue
  rw [Action.run_get_bind]
  split
  · exact .ok start
  · exact .fault (faulty _ s (by simp) start)

omit steps closed in
theorem settles_checkDepth (s : State) (start : P s) : Settles P Q (config.checkDepth.run s) := by
  unfold Config.checkDepth
  split
  · rw [Action.run_get_bind]
    split
    · exact .fault (faulty _ s (by simp) start)
    · exact .ok start
  · exact .ok start

theorem settles_newArray (size : Cell) (s : State) (start : P s) :
    Settles P Q ((Action.newArray size).run s) := by
  unfold Action.newArray
  rw [EStateM.run_bind, Action.run_allocate]
  cases made : s.heap.allocate size .array with
  | ok made => exact .ok (closed s _ start (steps.newArray s _ _ _ ‹_›))
  | error fault =>
    obtain rfl := Heap.eq_badSize_of_allocate made
    exact .fault (faulty _ s (by simp) start)

theorem settles_dispatchPrimitive {id : ExprId} {callee : FuncId} {args : List ExprId}
    {type : TypeId} (found : config.program.expr? id = some ⟨.call callee args, type⟩)
    {primitive : Primitive}
    (declared : config.setup.primitive? callee = some primitive) (values : List Value) (s : State)
    (start : P s) :
    Settles P Q ((config.dispatchPrimitive id primitive values type).run s) := by
  -- The announcement counts as a step of its own, unless memory is about to be released.
  have announce (other : primitive = .free → values.length ≠ 1) :
      P { s with journal := s.journal.push (.dispatch id values) } :=
    closed s _ start (steps.dispatch s id callee args type values found
      fun free => other (Option.some.inj (declared.symm.trans free)))
  unfold Config.dispatchPrimitive Config.primitiveCall Config.checkArity
  rw [EStateM.run_bind, Action.run_emit]
  dsimp only
  by_cases arity : values.length = primitive.arity
  swap
  · rw [if_neg arity]
    refine .fault (faulty _ _ (by simp) (announce ?_))
    rintro rfl
    exact arity
  rw [if_pos arity, EStateM.run_bind, EStateM.run_pure]
  dsimp only
  cases primitive with
  | read =>
    dsimp only
    by_cases asks : config.prompt = true
    · have asked := closed _ _ (announce (by simp)) (steps.println _ promptLine)
      rw [if_pos asks, EStateM.run_bind, Action.run_println]
      exact steps.settles_readValue closed type _ asked
    · rw [if_neg asks]
      exact steps.settles_readValue closed type _ (announce (by simp))
  | print => exact .ok (closed _ _ (announce (by simp)) (steps.println _ _))
  | allocate =>
    rw [EStateM.run_bind, Action.run_allocate]
    cases made : s.heap.allocate (values.headD .zero).cell .explicit with
    | ok made => exact .ok (closed _ _ (announce (by simp)) (steps.newBlock _ _ _ _ made))
    | error fault =>
      obtain rfl := Heap.eq_badSize_of_allocate made
      exact .fault (faulty _ _ (by simp) (announce (by simp)))
  | free =>
    -- Announcement and release count as one step, which the journal then reports as a whole.
    obtain ⟨value, rfl⟩ := List.length_eq_one_iff.mp arity
    rw [EStateM.run_bind, Action.run_discard, Action.run_release]
    exact .ok (closed s _ start (steps.free s id callee args type value found declared))

omit closed faulty in
/-- Two evaluators of one program that start from equal states stay in equal states, in which every
predicate of a family holds that single steps keep and that activations take from one member of the
family to another and back. -/
theorem correspondence {ι : Type} {P : ι → State → Prop} {Q : ι → Fault → State → Prop}
    (closed : ∀ i s s', P i s → R s s' → P i s')
    (faulty : ∀ i fault s, fault ≠ .noCall → P i s → Q i fault s)
    (enter : ∀ i s, P i s → ∃ j, P j s.entered ∧
      (∀ s', P j s' → Settles (P i) (Q i) (Action.popFrame.run s')) ∧
      ∀ fault s', Q j fault s' → Settles (Q i fault) (Q i) (Action.popFrame.run s')) :
    Correspondence config config (fun i s t => s = t ∧ P i s)
      (fun i fault s t => s = t ∧ Q i fault s) (· = ·) where
  program := rfl
  setup := rfl
  refl _ := rfl
  cell := congrArg Value.cell
  fault other := fun ⟨same, start⟩ => ⟨same, faulty _ _ _ other start⟩
  remark i _ plain := Action.related_self (steps.settles_emit (closed i) plain)
  varValue i var := Action.related_self (settles_varValue (faulty i) var)
  assignVar i var value := Action.related_self (steps.settles_assignVar (closed i) var value)
  loadAt i address type := Action.related_self (settles_loadAt (faulty i) address type)
  storeAt i address type value :=
    Action.related_self (steps.settles_storeAt (closed i) (faulty i) address type value)
  record i expr v w same :=
    same ▸ Action.related_self fun s start => .ok (closed i s _ start (steps.record s expr v))
  bind i var value :=
    Action.related_self fun s start => .ok (closed i s _ start (steps.bind s var value))
  returning i v w same :=
    same ▸ Action.related_self fun s start => .ok (closed i s _ start (steps.returning s v))
  newArray i size := Action.related_self (steps.settles_newArray (closed i) (faulty i) size)
  primitive i id callee args type primitive values values' found declared same := by
    rw [List.forall₂_eq_eq_eq] at same
    rw [← same]
    exact Action.related_self
      (steps.settles_dispatchPrimitive (closed i) (faulty i) found declared values)
  dispatch i id callee args type values values' found declared same := by
    rw [List.forall₂_eq_eq_eq] at same
    rw [← same]
    refine Action.related_self fun s start => .ok (closed i s _ start ?_)
    exact steps.dispatch s id callee args type values found (by simp [declared])
  checkDepth i := Action.related_self (settles_checkDepth (faulty i))
  activation i exec exec' params values values' body bodies cells := by
    rintro s _ ⟨rfl, start⟩
    -- Inside, the member `j` of the family takes the place of `i` until the frame is popped.
    obtain ⟨j, entered, leave, abandon⟩ := enter i s start
    refine matching_activation (I := fun s t => s = t ∧ P j s)
      (F := fun fault s t => s = t ∧ Q j fault s) ⟨rfl, entered⟩ ?_ ?_ ?_
    · refine related_boundBody rfl (fun var value => ?_) params cells (bodies j body)
      exact Action.related_self fun s start => .ok (closed j s _ start (steps.bind s var value))
    · rintro s _ ⟨rfl, inside⟩
      exact (leave s inside).matching fun _ => rfl
    · rintro fault s _ ⟨rfl, inside⟩
      exact (abandon fault s inside).matching fun _ => trivial

end Steps

/-- A call settles as the activations do that it leads to. -/
theorem settles_functionCall {config : Config} {exec : StmtId → Action Completion}
    {values : List Value} {s : State} {P : State → Prop} {Q : Fault → State → Prop}
    (faulty : ∀ fault, fault ≠ .noCall → Q fault s)
    (activation : ∀ params body,
      Settles P Q ((config.activation exec params values body).run s))
    (callee : FuncId) (type : TypeId) :
    Settles P Q ((config.functionCall exec callee values type).run s) := by
  have unchanged : ∀ fault u, fault ≠ .noCall → u = s → Q fault u := fun fault u other same =>
    same ▸ faulty fault other
  have arity (name : String) (expected got : Nat) :
      Settles (· = s) Q ((checkArity name expected got).run s) := by
    unfold checkArity
    split
    · exact .ok rfl
    · exact .fault (faulty _ (by simp))
  unfold Config.functionCall
  dsimp only
  cases config.program.func? (config.setup.implementation config.program callee) with
  | none => exact .dangling
  | some decl =>
    rw [EStateM.run_bind, Action.run_ofOption_some]
    dsimp only
    cases decl.body with
    | none => exact .fault (faulty _ (by simp))
    | some body =>
      refine (arity _ _ _).bind fun _ _ same => ?_
      refine (Steps.settles_checkDepth unchanged _ same).bind fun _ _ same => ?_
      subst same
      exact (activation decl.params body).bind fun _ _ left => .ok left

/-! ### Closed relations -/

/-- A relation that the steps of the machine and whole activations keep. The relation `E fault` says
what holds instead when something goes wrong. -/
structure Closed (config : Config) (R : State → State → Prop)
    (E : Fault → State → State → Prop) : Prop extends config.Steps R where
  refl : ∀ s, R s s
  trans : ∀ {s t u}, R s t → R t u → R s u
  ready : ∀ s : State, R s { s with globalsReady := true }
  fault : ∀ {fault} s, fault ≠ .noCall → E fault s s
  fault_trans : ∀ {fault s t u}, R s t → E fault t u → E fault s u
  leave : ∀ {s s'}, R s.entered s' → ∃ frame calls, s'.stack.calls = frame :: calls ∧
    R s (Action.afterPop s' frame calls)
  abandon : ∀ {fault s s'}, E fault s.entered s' → ∃ frame calls,
    s'.stack.calls = frame :: calls ∧ E fault s (Action.afterPop s' frame calls)

/-- What `R` and `E` say about the return of an action. -/
def Outcome (R : State → State → Prop) (E : Fault → State → State → Prop) (s : State) :
    Except Fault α → State → Prop
  | .ok _, s' => R s s'
  | .error fault, s' => E fault s s'

/-- If the same is said of a fault, it is true in any case. -/
theorem Outcome.elim {R : State → State → Prop} {s s' : State} {result : Except Fault α}
    (outcome : Outcome R (fun _ => R) s result s') : R s s' := by
  cases result <;> exact outcome

theorem Outcome.of_settles {R : State → State → Prop} {E : Fault → State → State → Prop}
    {s s' : State} {action : Action α} {result : Except Fault α}
    (settles : Settles (R s) (fun fault => E fault s) (action.run s))
    (run : action.Returns s result s') : Outcome R E s result s' := by
  unfold Action.Returns at run
  rw [run] at settles
  cases result with
  | ok value => cases settles with | ok kept => exact kept
  | error fault => cases settles with | fault kept => exact kept

namespace Closed

variable {config : Config} {R : State → State → Prop} {E : Fault → State → State → Prop}
  (h : config.Closed R E) {levels : Nat} {s s' : State}
include h

/-- Evaluations that begin where a predicate holds agree with themselves there, if the relation
keeps the predicate. -/
theorem correspondence {I : State → Prop} (kept : ∀ s s', I s → R s s' → I s')
    (pushed : ∀ s, I s → I s.entered) :
    Correspondence config config (fun (i : { s : State // I s }) s t => s = t ∧ R i s)
      (fun i fault s t => s = t ∧ E fault i s) (· = ·) := by
  refine h.toSteps.correspondence (fun _ _ _ => h.trans)
    (fun _ _ _ other start => h.fault_trans start (h.fault _ other)) ?_
  intro i s start
  -- Within an activation states are compared with the one in which it began.
  refine ⟨⟨s.entered, pushed s (kept i s i.2 start)⟩, h.refl _, fun s' inside => ?_,
    fun fault s' inside => ?_⟩
  · obtain ⟨frame, calls, found, left⟩ := h.leave inside
    rw [Action.run_popFrame_cons found]
    exact .ok (h.trans start left)
  · obtain ⟨frame, calls, found, left⟩ := h.abandon inside
    rw [Action.run_popFrame_cons found]
    exact .ok (h.fault_trans start left)

/-- Whatever state they begin in, evaluations agree with themselves. -/
theorem reflexive : Correspondence config config
    (fun (i : { _s : State // True }) s t => s = t ∧ R i s)
    (fun i fault s t => s = t ∧ E fault i s) (· = ·) :=
  h.correspondence (fun _ _ _ _ => trivial) fun _ _ => trivial

omit h in
theorem settles_of_related {V : α → α → Prop} {action : Action α}
    (related : Related (fun s t => s = t ∧ R s' s) (fun fault s t => s = t ∧ E fault s' s) V action
      action) (start : R s' s) :
    Settles (R s') (fun fault => E fault s') (action.run s) := by
  have matching := related (s := s) ⟨rfl, start⟩
  generalize action.run s = result at matching
  cases matching with
  | ok _ kept => exact .ok kept.2
  | fault kept => exact .fault kept.2
  | dangling => exact .dangling
  | exhausted => exact .exhausted

theorem eval {id : ExprId} {result : Except Fault Value}
    (run : (CellC.eval config levels id).Returns s result s') : Outcome R E s result s' :=
  .of_settles (settles_of_related (h.reflexive.eval levels ⟨s, trivial⟩ id) (h.refl s)) run

theorem exec {id : StmtId} {result : Except Fault Completion}
    (run : (CellC.exec config levels id).Returns s result s') : Outcome R E s result s' :=
  .of_settles (settles_of_related (h.reflexive.exec levels ⟨s, trivial⟩ id) (h.refl s)) run

theorem run {result : Except Fault Value} (run : (config.run levels).Returns s result s') :
    Outcome R E s result s' := by
  have related := h.reflexive.running (h.reflexive.eval levels ⟨s, trivial⟩)
    (fun _ _ start => start.1 ▸ rfl) (fun _ _ start => start.1 ▸ ⟨rfl, h.trans start.2 (h.ready _)⟩)
    (fun callee _ _ => h.reflexive.functionCall (h.reflexive.exec levels) callee)
    (fun v w same => same ▸ h.reflexive.remark _ rfl)
  exact .of_settles (settles_of_related related (h.refl s)) run

variable (levels s) in
/-- From the body of a function to its activation: only the step out of it leads to `T`. -/
theorem settles_activation {T : State → State → Prop} {F : Fault → State → State → Prop}
    (leave : ∀ {s s' frame calls}, R s.entered s' → s'.stack.calls = frame :: calls →
      T s (Action.afterPop s' frame calls))
    (abandon : ∀ {fault s s' frame calls}, E fault s.entered s' →
      s'.stack.calls = frame :: calls → F fault s (Action.afterPop s' frame calls))
    (params : List VarId) (values : List Value) (body : StmtId) :
    Settles (T s) (fun fault => F fault s)
      ((config.activation (CellC.exec config levels) params values body).run s) := by
  have bodies : Settles (R s.entered) (fun fault => E fault s.entered)
      ((config.boundBody (CellC.exec config levels) params values body).run s.entered) :=
    settles_of_related (related_boundBody rfl (h.reflexive.bind ⟨_, trivial⟩) params rfl
      (h.reflexive.exec levels _ body)) (h.refl _)
  rw [run_activation]
  generalize (config.boundBody (CellC.exec config levels) params values body).run s.entered =
    result at bodies
  cases bodies with
  | ok inside =>
    obtain ⟨frame, calls, found, -⟩ := h.leave inside
    dsimp only
    rw [Action.run_popFrame_cons found]
    exact .ok (leave inside found)
  | fault inside =>
    obtain ⟨frame, calls, found, -⟩ := h.abandon inside
    dsimp only
    rw [Action.run_popFrame_cons found]
    exact .fault (abandon inside found)
  | dangling => exact .dangling
  | exhausted => exact .exhausted

/-- What can be said of every activation is true of every call of a function. -/
theorem functionCall_of {T : State → State → Prop} {F : Fault → State → State → Prop}
    (fault : ∀ {fault} s, fault ≠ .noCall → F fault s s)
    (leave : ∀ {s s' frame calls}, R s.entered s' → s'.stack.calls = frame :: calls →
      T s (Action.afterPop s' frame calls))
    (abandon : ∀ {fault s s' frame calls}, E fault s.entered s' →
      s'.stack.calls = frame :: calls → F fault s (Action.afterPop s' frame calls))
    {callee : FuncId} {values : List Value} {type : TypeId} {result : Except Fault Value}
    (run : (config.functionCall (CellC.exec config levels) callee values type).Returns s result
      s') :
    Outcome T F s result s' := by
  have activation (params : List VarId) (body : StmtId) :=
    h.settles_activation levels s leave abandon params values body
  exact .of_settles (settles_functionCall (fun _ => fault s) activation callee type) run

end Closed

end Config

end CellC
