import CellC.Proofs.Ownership.Invariant
import CellC.Proofs.StackDiscipline
import CellC.Proofs.Watch

/-!
# The ledger of blocks

Which blocks live after a call follows from the journal of the call: those that lived before and
were not freed, and those that the program asked for and did not free again. An array that an
activation declares is among neither, as the pop of its frame ends it.

The address at which the next block goes divides the blocks. Below it are those that were there
before, of which only the freed ones are missing afterwards. From it on are those made since.

## Main definitions

* `Config.freed`, `Config.kept`: the freed addresses and the blocks asked for, as the journal has
  them
* `Config.Change`: what happened to blocks and frames between two moments of an activation
* `Config.CallLedger`: what a call did to the blocks
* `Config.ownership`: the watch on all this

## Main results

* `Config.closed_evolution`: every step changes blocks and frames in that way
* `array_ownership`: in every run, arrays belong to frames and calls leave none behind
-/

namespace CellC

/-! ### Entries of the journal -/

/-- The block that an event reports to be made for the program. -/
def Event.requested : Event → List (Address × Nat)
  | .allocate base size .explicit => [(base, size)]
  | _ => []

namespace Config

variable (config : Config)

/-- The address that is freed by what an event announces, which is a call of `FREE`. -/
def freedAddress? : Event → Option Address
  | .dispatch id [value] =>
    match config.program.expr? id with
    | some ⟨.call callee _, _⟩ =>
      if config.setup.primitive? callee = some .free then some value.address else none
    | _ => none
  | _ => none

/-- The addresses that the program freed, whether a block started there or not. -/
def freed (events : List Event) : List Address := events.filterMap config.freedAddress?

/-- The blocks that the program asked for and did not free afterwards. -/
def kept : List Event → List (Address × Nat)
  | [] => []
  | event :: events => (event.requested.filter (·.1 ∉ config.freed events)) ++ kept events

/-- The events neither free a block nor report one that the program asked for. -/
def Quiet (events : List Event) : Prop := config.freed events = [] ∧ config.kept events = []

variable {config}

theorem freed_append (first second : List Event) :
    config.freed (first ++ second) = config.freed first ++ config.freed second :=
  List.filterMap_append

/-- A block is kept if it is asked for in the second part and kept there, or asked for in the first
part and not freed in either. -/
theorem mem_kept_append {first second : List Event} {block : Address × Nat} :
    block ∈ config.kept (first ++ second) ↔
      block ∈ config.kept first ∧ block.1 ∉ config.freed second ∨ block ∈ config.kept second := by
  induction first with
  | nil => simp [kept]
  | cons event events ih =>
    simp only [List.cons_append, kept, List.mem_append, List.mem_filter, ih, freed_append, not_or,
      decide_eq_true_eq]
    tauto

theorem Quiet.nil : config.Quiet [] := ⟨rfl, rfl⟩

theorem quiet_cons {event : Event} {events : List Event} (quiet : config.Quiet events)
    (freed : config.freedAddress? event = none) (requested : event.requested = []) :
    config.Quiet (event :: events) := by
  constructor
  · rw [Config.freed, List.filterMap_cons_none freed]
    exact quiet.1
  · rw [kept, requested, quiet.2]
    rfl

theorem Quiet.append {first second : List Event} (quiet : config.Quiet first)
    (quiet' : config.Quiet second) : config.Quiet (first ++ second) := by
  constructor
  · rw [freed_append, quiet.1, quiet'.1]
    rfl
  · apply List.eq_nil_iff_forall_not_mem.mpr
    intro block member
    rw [mem_kept_append, quiet.2, quiet'.2] at member
    simp at member

theorem quiet_remark {event : Event} (plain : event.IsRemark = true) : config.Quiet [event] := by
  refine quiet_cons .nil ?_ ?_
  · cases event <;> first | rfl | cases plain
  · cases event <;> first | rfl | cases plain

theorem quiet_releaseEvents (heap : Heap) (bases : List Address) :
    config.Quiet (Action.releaseEvents heap bases) := by
  induction bases generalizing heap with
  | nil => exact .nil
  | cons base bases ih =>
    refine quiet_cons (ih _) ?_ ?_ <;>
      (unfold Action.releaseEvent; split <;> rfl)

/-! ### Changes within an activation -/

end Config

namespace CallStack.Returned

variable {setup : Setup} {before after : CallStack} (returned : before.Returned setup after)
include returned

/-- A call changes no frame's list of arrays. -/
theorem arrays : after.arrays = before.arrays := by
  unfold CallStack.arrays
  rw [returned.calls, returned.fileScope.arrays]

theorem top_arrays : after.top.arrays = before.top.arrays := by
  unfold CallStack.top
  rw [returned.calls]
  cases before.calls with
  | nil => exact returned.fileScope.arrays
  | cons frame calls => rfl

end CallStack.Returned

namespace Config

variable {config : Config}

variable (config) in
/-- From `s` to `s'`, at two moments of one activation, the given events happened. Arrays came to
belong to the frame of the activation, and otherwise the blocks changed as the events say. -/
structure Change (s s' : State) (events : List Event) : Prop where
  journal : s'.journal.toList = s.journal.toList ++ events
  owned : s'.heap.ArraysOwned s'.stack.arrays
  top : ∀ base ∈ s'.stack.top.arrays,
    base ∈ s.stack.top.arrays ∨ s.heap.next.toNat ≤ base.toNat
  /-- Of the blocks that were there before, those that were freed are missing. -/
  older : ∀ base size purpose, base.toNat < s.heap.next.toNat →
    (s'.heap.Live base size purpose ↔
      s.heap.Live base size purpose ∧ base ∉ config.freed events)
  /-- Of the blocks made since, those that the program asked for are there if they were kept. -/
  newer : ∀ base size, s.heap.next.toNat ≤ base.toNat →
    (s'.heap.Live base size .explicit ↔ (base, size) ∈ config.kept events)
  range : ∀ block ∈ config.kept events,
    s.heap.next.toNat ≤ block.1.toNat ∧ block.1.toNat < s'.heap.next.toNat

namespace Change

variable {s s' s'' : State} {events later : List Event}

/-- Nothing that matters changes. -/
theorem quiet (owned : s.heap.ArraysOwned s.stack.arrays)
    (journal : s'.journal.toList = s.journal.toList ++ events) (quiet : config.Quiet events)
    (arrays : s'.stack.arrays = s.stack.arrays) (top : s'.stack.top.arrays = [] ∨
      s'.stack.top.arrays = s.stack.top.arrays)
    (kept : s'.heap.ArraysOwned s.stack.arrays)
    (live : ∀ base size purpose,
      s'.heap.Live base size purpose ↔ s.heap.Live base size purpose) :
    config.Change s s' events where
  journal := journal
  owned := by rwa [arrays]
  top base member := by
    rcases top with none | same
    · rw [none] at member
      cases member
    · exact .inl (same ▸ member)
  older base size purpose below := by simp [live, quiet.1]
  newer base size beyond := by
    rw [live, quiet.2]
    exact iff_of_false (owned.layout.not_live beyond size _) List.not_mem_nil
  range block member := by
    rw [quiet.2] at member
    cases member

theorem trans (first : config.Change s s' events) (second : config.Change s' s'' later)
    (next : s.heap.next.toNat ≤ s'.heap.next.toNat)
    (next' : s'.heap.next.toNat ≤ s''.heap.next.toNat) :
    config.Change s s'' (events ++ later) where
  journal := by rw [second.journal, first.journal, List.append_assoc]
  owned := second.owned
  top base member := by
    rcases second.top base member with member | fresh
    · exact first.top base member
    · exact .inr (Nat.le_trans next fresh)
  older base size purpose below := by
    rw [second.older base size purpose (by omega), first.older base size purpose below,
      freed_append, List.mem_append, not_or, and_assoc]
  newer base size beyond := by
    rw [mem_kept_append]
    rcases Nat.lt_or_ge base.toNat s'.heap.next.toNat with early | late
    · have elsewhere : (base, size) ∉ config.kept later := fun member => by
        have range := second.range _ member
        dsimp only at range
        omega
      rw [second.older base size .explicit early, first.newer base size beyond,
        or_iff_left elsewhere]
    · have elsewhere : (base, size) ∉ config.kept events := fun member => by
        have range := first.range _ member
        dsimp only at range
        omega
      rw [second.newer base size late, or_iff_right fun member => elsewhere member.1]
  range block member := by
    rcases mem_kept_append.mp member with ⟨member, -⟩ | member
    · have range := first.range block member
      omega
    · have range := second.range block member
      omega

/-- An activation begins. -/
theorem entered (owned : s.heap.ArraysOwned s.stack.arrays) :
    config.Change s s.entered [.push (s.stack.depth + 1)] := by
  refine quiet owned ?_ (quiet_cons .nil rfl rfl) rfl (.inl rfl) owned fun _ _ _ => Iff.rfl
  simp [State.entered]

/-- An activation ends: its own arrays are all made since it began, so the blocks from before stay.
-/
theorem leave {frame : Frame} {calls : List Frame} (change : config.Change s.entered s' events)
    (owned : s.heap.ArraysOwned s.stack.arrays)
    (next : s.heap.next.toNat ≤ s'.heap.next.toNat) (found : s'.stack.calls = frame :: calls)
    (top : (Action.afterPop s' frame calls).stack.top.arrays = s.stack.top.arrays) :
    config.Change s (Action.afterPop s' frame calls) (.push (s.stack.depth + 1) :: events ++
      (Action.releaseEvents s'.heap frame.arrays ++ [.pop (calls.length + 1) frame.ret])) := by
  have silent : config.Quiet (Action.releaseEvents s'.heap frame.arrays ++
      [.pop (calls.length + 1) frame.ret]) :=
    (quiet_releaseEvents _ _).append (quiet_cons .nil rfl rfl)
  have inside : config.Change s s' (.push (s.stack.depth + 1) :: events) :=
    (entered owned).trans change (Nat.le_refl _) next
  have fitting := inside.owned
  rw [CallStack.arrays_of_calls found] at fitting
  have young (base : Address) (member : base ∈ frame.arrays) :
      s.heap.next.toNat ≤ base.toNat := by
    have mine : s'.stack.top = frame := by rw [CallStack.top, found, List.headD_cons]
    rcases change.top base (mine ▸ member) with member | fresh
    · cases member
    · exact fresh
  refine ⟨?_, fitting.pop, fun base member => .inl (top ▸ member),
    fun base size purpose below => ?_, fun base size beyond => ?_, fun block member => ?_⟩
  · simp [Action.afterPop, inside.journal]
  · rw [freed_append, silent.1, List.append_nil, ← inside.older base size purpose below]
    refine Heap.live_removeAll.trans (and_iff_left fun member => ?_)
    have fresh := young base member
    omega
  · rw [mem_kept_append, silent.1, silent.2]
    simp only [List.not_mem_nil, not_false_eq_true, and_true, or_false]
    rw [← inside.newer base size beyond]
    exact fitting.live_pop base size
  · rw [mem_kept_append, silent.1, silent.2] at member
    simp only [List.not_mem_nil, not_false_eq_true, and_true, or_false] at member
    exact inside.range block member

end Change

variable (config) in
/-- What any part of an activation does to frames and blocks. As long as the address space lasts,
blocks and frames change as the journal says. -/
structure Evolution (s s' : State) : Prop where
  frames : s.stack.Undisturbed config.setup s'.stack
  next : s.heap.next.toNat ≤ s'.heap.next.toNat
  change : s'.heap.Roomy → s.heap.ArraysOwned s.stack.arrays → ∃ events, config.Change s s' events

namespace Evolution

variable {s s' s'' : State}

theorem trans (first : config.Evolution s s') (second : config.Evolution s' s'') :
    config.Evolution s s'' where
  frames := first.frames.trans second.frames
  next := Nat.le_trans first.next second.next
  change roomy owned := by
    obtain ⟨events, change⟩ := first.change (Nat.lt_of_le_of_lt second.next roomy) owned
    obtain ⟨later, change'⟩ := second.change roomy change.owned
    exact ⟨_, change.trans change' first.next second.next⟩

/-- If the address space has lasted, it had lasted before, and arrays still belong to frames. -/
theorem owned (evolution : config.Evolution s s')
    (before : s.heap.Roomy → s.heap.ArraysOwned s.stack.arrays) (roomy : s'.heap.Roomy) :
    s'.heap.ArraysOwned s'.stack.arrays := by
  have start := before (Nat.lt_of_le_of_lt evolution.next roomy)
  exact (evolution.change roomy start).choose_spec.owned

/-- Neither the heap nor the lists of arrays change. -/
theorem still {events : List Event} (frames : s.stack.Undisturbed config.setup s'.stack)
    (heap : s'.heap = s.heap) (arrays : s'.stack.arrays = s.stack.arrays)
    (top : s'.stack.top.arrays = s.stack.top.arrays)
    (journal : s'.journal.toList = s.journal.toList ++ events) (quiet : config.Quiet events) :
    config.Evolution s s' where
  frames := frames
  next := Nat.le_of_eq (by rw [heap])
  change roomy owned := ⟨events, .quiet owned journal quiet arrays (.inr top)
    (by rwa [heap]) (by rw [heap]; exact fun _ _ _ => Iff.rfl)⟩

/-- The frame of the activation changes, but not its arrays. -/
theorem modifyTop {f : Frame → Frame} (same : ∀ frame, (f frame).arrays = frame.arrays)
    (s : State) : config.Evolution s { s with stack := s.stack.modifyTop f } :=
  still (.modifyTop f s.stack) rfl (CallStack.arrays_modifyTop same s.stack)
    (by rw [CallStack.top_modifyTop, same]) (by simp) .nil

theorem bindRoot {var : VarId} (scope : config.setup.hasFileScope var = true) (value : Value)
    (s : State) : config.Evolution s { s with stack := s.stack.modifyRoot (·.bind var value) } := by
  refine still (.bindRoot scope value s.stack) rfl
    (CallStack.arrays_modifyRoot (fun _ => rfl) s.stack) ?_ (by simp) .nil
  unfold CallStack.top CallStack.modifyRoot
  cases s.stack.calls <;> rfl

theorem emit {event : Event} (quiet : config.Quiet [event]) (s : State) :
    config.Evolution s { s with journal := s.journal.push event } :=
  still (.refl _) rfl rfl rfl (by simp) quiet

theorem store {address : Address} {width : Nat} {cell : Cell} {heap : Heap}
    (stored : s.heap.store address width cell = .ok heap) :
    config.Evolution s { s with heap } := by
  obtain ⟨block, start, -, written⟩ := Heap.store_eq_ok stored
  refine ⟨.refl _, Nat.le_of_eq (by rw [written]; rfl), fun roomy owned => ⟨[], ?_⟩⟩
  refine .quiet owned (by simp) .nil rfl (.inr rfl) (owned.store stored) fun base size purpose => ?_
  rw [written]
  exact Heap.live_write

theorem newArray {size : Cell} {base : Address} {heap : Heap}
    (made : s.heap.allocate size .array = .ok (base, heap)) :
    config.Evolution s { s with
      heap
      stack := s.stack.modifyTop (·.adopt base)
      journal := s.journal.push (.allocate base size.toInt.toNat .array) } := by
  refine ⟨.modifyTop _ _, Heap.next_le_of_allocate made, fun roomy owned =>
    ⟨[.allocate base size.toInt.toNat .array], ?_⟩⟩
  have start := (Heap.next_eq_of_allocate made).1
  refine ⟨by simp, (owned.newArray made roomy).perm (CallStack.arrays_adopt base s.stack),
    fun other member => ?_, fun other count purpose below => ?_, fun other count beyond => ?_,
    fun block member => by cases member⟩
  · rw [CallStack.top_modifyTop] at member
    rcases List.mem_append.mp member with member | new
    · exact .inl member
    · obtain rfl := List.mem_singleton.mp new
      exact .inr (start ▸ Nat.le_refl _)
  · rw [owned.layout.live_allocate_of_lt made below]
    exact (and_iff_left List.not_mem_nil).symm
  · rw [owned.layout.live_allocate_of_le made beyond]
    exact iff_of_false (by simp) List.not_mem_nil

theorem newBlock {size : Cell} {base : Address} {heap : Heap}
    (made : s.heap.allocate size .explicit = .ok (base, heap)) :
    config.Evolution s { s with
      heap
      journal := s.journal.push (.allocate base size.toInt.toNat .explicit) } := by
  refine ⟨.refl _, Heap.next_le_of_allocate made, fun roomy owned =>
    ⟨[.allocate base size.toInt.toNat .explicit], ?_⟩⟩
  have start := (Heap.next_eq_of_allocate made).1
  have kept (block : Address × Nat) :
      block ∈ config.kept [.allocate base size.toInt.toNat .explicit] ↔
        block = (base, size.toInt.toNat) := by
    simp [Config.kept, Event.requested, Config.freed]
  refine ⟨by simp, owned.newBlock made roomy, fun other member => .inl member,
    fun other count purpose below => ?_, fun other count beyond => ?_, fun block member => ?_⟩
  · rw [owned.layout.live_allocate_of_lt made below]
    exact (and_iff_left List.not_mem_nil).symm
  · rw [owned.layout.live_allocate_of_le made beyond, kept]
    simp
  · rw [(kept block).mp member]
    subst start
    exact ⟨Nat.le_refl _, Heap.next_lt_of_allocate made roomy⟩

/-- A call of `FREE` ends the block at its argument, if there is one. -/
theorem free {id : ExprId} {callee : FuncId} {args : List ExprId} {type : TypeId}
    (found : config.program.expr? id = some ⟨.call callee args, type⟩)
    (free : config.setup.primitive? callee = some .free) (s : State) (value : Value) :
    config.Evolution s { s with
      heap := s.heap.remove value.address
      journal := (s.journal.push (.dispatch id [value])).push
        (Action.releaseEvent s.heap value.address) } := by
  refine ⟨.refl _, Nat.le_refl _, fun roomy owned =>
    ⟨[.dispatch id [value], Action.releaseEvent s.heap value.address], ?_⟩⟩
  have silent : config.Quiet [Action.releaseEvent s.heap value.address] :=
    quiet_releaseEvents s.heap [value.address]
  have freed : config.freed [.dispatch id [value], Action.releaseEvent s.heap value.address] =
      [value.address] := by
    rw [← List.singleton_append, freed_append, silent.1]
    simp [Config.freed, freedAddress?, found, free]
  have kept : config.kept [.dispatch id [value], Action.releaseEvent s.heap value.address] = [] :=
    silent.2
  refine ⟨by simp, owned.free value.address, fun other member => .inl member,
    fun other count purpose below => ?_, fun other count beyond => ?_, fun block member => ?_⟩
  · rw [freed, List.mem_singleton]
    exact Heap.live_remove
  · rw [kept, Heap.live_remove]
    exact iff_of_false (fun alive => owned.layout.not_live beyond count _ alive.1) List.not_mem_nil
  · rw [kept] at member
    cases member

/-- An activation as a whole, from the push of its frame to the pop. -/
theorem leave {frame : Frame} {calls : List Frame} (inside : config.Evolution s.entered s')
    (found : s'.stack.calls = frame :: calls) :
    config.Evolution s (Action.afterPop s' frame calls) := by
  have returned := returned_afterPop inside.frames found
  refine ⟨returned.undisturbed, inside.next, fun roomy owned => ?_⟩
  obtain ⟨events, change⟩ := inside.change roomy owned
  refine ⟨_, change.leave owned inside.next found ?_⟩
  rw [returned.top_arrays]

end Evolution

/-- Every step changes frames and blocks as the journal says. -/
theorem closed_evolution (config : Config) :
    config.Closed config.Evolution fun _ => config.Evolution where
  remark s _ plain := .emit (quiet_remark plain) s
  bind s var value := .modifyTop (f := (·.bind var value)) (fun _ => rfl) s
  bindRoot s _ value scope := .bindRoot scope value s
  record s expr value := .modifyTop (f := (·.record expr value)) (fun _ => rfl) s
  returning s value := .modifyTop (f := (·.returning value)) (fun _ => rfl) s
  store _ _ _ _ _ stored := .store stored
  newArray _ _ _ _ made := .newArray made
  newBlock _ _ _ _ made := .newBlock made
  dispatch s id callee args type values found unless_free := by
    refine .emit (quiet_cons .nil ?_ rfl) s
    match values with
    | [] | _ :: _ :: _ => rfl
    | [value] =>
      simp only [freedAddress?, found]
      exact if_neg fun free => unless_free free rfl
  free s id callee args type value found free := .free found free s value
  println _ _ := .still (.refl _) rfl rfl rfl (by simp) .nil
  read _ := .still (.refl _) rfl rfl rfl (by simp) .nil
  refl _ := .still (.refl _) rfl rfl rfl (by simp) .nil
  trans := .trans
  ready _ := .still (.refl _) rfl rfl rfl (by simp) .nil
  fault _ _ := .still (.refl _) rfl rfl rfl (by simp) .nil
  fault_trans := .trans
  leave inside := by
    obtain ⟨frame, found⟩ := inside.frames.calls_of_push
    exact ⟨frame, _, found, inside.leave found⟩
  abandon inside := by
    obtain ⟨frame, found⟩ := inside.frames.calls_of_push
    exact ⟨frame, _, found, inside.leave found⟩

/-! ### Calls -/

/-- The blocks that live after a call are those that lived before and that the program did not free,
and those that the program asked for and did not free again. -/
def CallLedger (config : Config) (s s' : State) : Prop :=
  ∃ events, s'.journal.toList = s.journal.toList ++ events ∧
    ∀ base size purpose, s'.heap.Live base size purpose ↔
      s.heap.Live base size purpose ∧ base ∉ config.freed events ∨
        purpose = .explicit ∧ (base, size) ∈ config.kept events

end Config

/-- Live arrays belong to frames, and popping a frame would end no block that the program asked for.
-/
structure State.Orderly (s : State) : Prop where
  owned : s.heap.ArraysOwned s.stack.arrays
  spares : ∀ ret s', Action.popFrame.run s = .ok ret s' → ∀ base size,
    s'.heap.Live base size .explicit ↔ s.heap.Live base size .explicit

theorem Heap.ArraysOwned.orderly {s : State} (owned : s.heap.ArraysOwned s.stack.arrays) :
    s.Orderly := by
  refine ⟨owned, fun ret s' popped base size => ?_⟩
  cases found : s.stack.calls with
  | nil =>
    rw [Action.run_popFrame_nil found] at popped
    cases popped
  | cons frame calls =>
    rw [Action.run_popFrame_cons found] at popped
    cases popped
    rw [CallStack.arrays_of_calls found] at owned
    exact owned.live_pop base size

namespace Config

variable {config : Config} {s s' : State}

/-- If no frame lists more arrays than before, the blocks changed as after a call. -/
theorem Change.callLedger {events : List Event} (change : config.Change s s' events)
    (owned : s.heap.ArraysOwned s.stack.arrays) (arrays : s'.stack.arrays = s.stack.arrays) :
    config.CallLedger s s' := by
  refine ⟨events, change.journal, fun base size purpose => ?_⟩
  rcases Nat.lt_or_ge base.toNat s.heap.next.toNat with below | beyond
  · have elsewhere : (base, size) ∉ config.kept events := fun member => by
      have range := change.range _ member
      dsimp only at range
      omega
    rw [change.older base size purpose below, or_iff_left fun made => elsewhere made.2]
  · rw [or_iff_right fun live => owned.layout.not_live beyond size purpose live.1]
    cases purpose with
    | explicit => rw [change.newer base size beyond, and_iff_right rfl]
    | array =>
      -- An array made during the call would belong to a frame that was there before.
      refine iff_of_false (fun live => ?_) (by simp)
      have member := change.owned.listed base size live
      rw [arrays] at member
      have below := owned.old base member
      omega

/-- After a call every live array belongs to a frame, and the ledger of the call is balanced. -/
theorem orderly_of_functionCall {levels : Nat} {callee : FuncId} {values : List Value}
    {type : TypeId} {result : Except Fault Value}
    (owned : s.heap.Roomy → s.heap.ArraysOwned s.stack.arrays)
    (run : (config.functionCall (CellC.exec config levels) callee values type).Returns s result s')
    (roomy : s'.heap.Roomy) : s'.Orderly ∧ config.CallLedger s s' := by
  have arrays := (returned_of_functionCall run).1.arrays
  have evolution : config.Evolution s s' :=
    (config.closed_evolution.functionCall_of (F := fun _ => config.Evolution)
      (fun _ _ => config.closed_evolution.refl _) (fun inside found => inside.leave found)
      (fun inside found => inside.leave found) run).elim
  have start := owned (Nat.lt_of_le_of_lt evolution.next roomy)
  obtain ⟨events, change⟩ := evolution.change roomy start
  exact ⟨change.owned.orderly, change.callLedger start arrays⟩

/-- The watch on the ownership of arrays, as long as the address space lasts. -/
def ownership (config : Config) : Watch where
  entered s := s.heap.Roomy → s.Orderly
  returned _ s' := s'.heap.Roomy → s'.Orderly
  callReturned s s' := s'.heap.Roomy → s'.Orderly ∧ config.CallLedger s s'

theorem unalarmed_ownership (owned : s.heap.Roomy → s.heap.ArraysOwned s.stack.arrays) :
    config.Unalarmed config.ownership s := by
  refine config.closed_evolution.unalarmed
    (I := fun s => s.heap.Roomy → s.heap.ArraysOwned s.stack.arrays)
    (fun _ _ owned evolution => evolution.owned owned) (fun _ owned => owned)
    (fun _ owned roomy => (owned roomy).orderly)
    (fun _ _ _ owned outcome roomy => (outcome.elim.owned owned roomy).orderly)
    (fun _ _ _ _ _ _ _ owned run => orderly_of_functionCall owned run) owned

end Config

/-- **Arrays belong to frames.** In every state that requests lead to, and as long as the address
space lasts: whenever an evaluation, an execution or a call begins or returns, however deep inside a
further request, every live array is listed by exactly one frame and exactly once, and popping a
frame ends no block that the program asked for. When a call returns, also with a fault, the live
blocks are those from before that the program did not free, and those that the program asked for and
did not free again. -/
theorem array_ownership {program : Program} {settings : Settings} {interpreter : Interpreter}
    (reachable : Interpreter.Reachable program settings interpreter) :
    (interpreter.state.heap.Roomy → interpreter.state.Orderly) ∧
    interpreter.config.Unalarmed interpreter.config.ownership interpreter.state ∧
    ∀ levels callee values type result s',
      (interpreter.config.functionCall (CellC.exec interpreter.config levels) callee values
        type).Returns interpreter.state result s' →
      s'.heap.Roomy → s'.Orderly ∧ interpreter.config.CallLedger interpreter.state s' := by
  have owned : interpreter.state.heap.Roomy →
      interpreter.state.heap.ArraysOwned interpreter.state.stack.arrays := by
    induction reachable with
    | start started =>
      rw [Interpreter.state_of_start started]
      exact fun _ => .empty
    | @run interpreter _ result s' _ run ih =>
      have outcome := interpreter.config.closed_evolution.run run
      exact outcome.elim.owned ih
    | @eval interpreter _ _ result s' _ run ih =>
      have outcome := interpreter.config.closed_evolution.eval run
      exact outcome.elim.owned ih
    | @exec interpreter _ _ result s' _ run ih =>
      have outcome := interpreter.config.closed_evolution.exec run
      exact outcome.elim.owned ih
  exact ⟨fun roomy => (owned roomy).orderly, Config.unalarmed_ownership owned,
    fun _ _ _ _ _ _ run => Config.orderly_of_functionCall owned run⟩

/-- A function that declares an array of two integers, asks for a block of eight bytes, frees the
array and fails, and an entry point that calls it. -/
def declareAndFail : Program where
  types := ⟨⟨#[.int, .char, .void, .array .int 2]⟩⟩
  names := ⟨⟨#["", "MALLOC", "FREE", "f", "a", "main"]⟩⟩
  vars := #[⟨⟨4⟩, ⟨3⟩, none⟩]
  exprs := #[⟨.intLit 8, .int⟩, ⟨.call ⟨0⟩ [⟨0⟩], .int⟩, ⟨.ident ⟨0⟩, ⟨3⟩⟩, ⟨.call ⟨1⟩ [⟨2⟩], .int⟩,
    ⟨.call ⟨2⟩ [], .int⟩]
  stmts := #[.decl [⟨0⟩], .expr ⟨1⟩, .expr ⟨3⟩, .break, .compound [⟨0⟩, ⟨1⟩, ⟨2⟩, ⟨3⟩],
    .return (some ⟨4⟩)]
  funcs := #[⟨⟨1⟩, [], .int, none⟩, ⟨⟨2⟩, [], .void, none⟩, ⟨⟨3⟩, [], .int, some ⟨4⟩⟩,
    ⟨⟨5⟩, [], .int, some ⟨5⟩⟩]
  topLevel := #[.function ⟨0⟩, .function ⟨1⟩, .function ⟨2⟩, .function ⟨3⟩]

/-- No alarm is raised, and of the two blocks only the one that was asked for is left. -/
theorem array_ownership_declareAndFail :
    ∃ interpreter, Interpreter.start declareAndFail {} = .ok interpreter ∧
      ∃ s', (∀ alarm, (interpreter.config.watchedRun interpreter.config.ownership alarm 9).outcome
          interpreter.state = .ok (.error (.unsupportedStmt "break"), s')) ∧
        s'.heap.blocks.map (fun block => (block.base.toNat, block.purpose)) =
          [(0x10000018, .explicit)] := by
  have returns : ∃ interpreter, Interpreter.start declareAndFail {} = .ok interpreter ∧ ∃ s',
      (interpreter.config.run 9).Returns interpreter.state (.error (.unsupportedStmt "break")) s' ∧
        s'.heap.blocks.map (fun block => (block.base.toNat, block.purpose)) =
          [(0x10000018, .explicit)] := ⟨_, rfl, _, rfl, rfl⟩
  obtain ⟨interpreter, started, s', run, blocks⟩ := returns
  have ownership := array_ownership (.start started)
  exact ⟨interpreter, started, s', fun alarm => (ownership.2.1.run alarm 9).trans run.outcome,
    blocks⟩

end CellC
