import CellC.Proofs.Heap.Dead
import CellC.Proofs.Ownership.Ledger
import CellC.Proofs.Places

/-!
# Dangling pointers

A pointer into a block that has ended leads nowhere for the rest of the run. The journal reports
each block that ends, so the statement is about what the journal reports: at every moment, however
deep inside a request, a range that the journal has reported as released is out of reach. The
arrays of a function are among those as soon as a call of it has returned, and a block is as soon as
it has been freed.

## Main definitions

* `Heap.Aged`: what happens to blocks and dead ranges in the course of some events
* `State.OutOfReach`: what the journal reports as released is out of reach
* `Config.Shuns`: what a program is denied where the heap refuses access
* `burial`: the watch on released blocks

## Main results

* `Config.closed_aging`: every step ages the heap as the journal says
* `dangling_pointers_stay_dead`: in every run, released blocks stay out of reach
-/

namespace CellC

/-- Whether an event reports that a block was made or ended. -/
def Event.concernsBlock : Event → Bool
  | allocate _ _ _ | release _ _ => true
  | _ => false

theorem Event.concernsBlock_of_isRemark {event : Event} (plain : event.IsRemark = true) :
    event.concernsBlock = false := by
  cases event <;> first | rfl | cases plain

namespace Heap

/-- From `heap` to `after` the given events happened. What was dead still is, and what was released
in between is dead, too. Any block from before or made in between lives, unless it was released. -/
structure Aged (heap after : Heap) (events : List Event) : Prop where
  layout : after.Layout
  next : heap.next.toNat ≤ after.next.toNat
  dead : ∀ base size, heap.Dead base size → after.Dead base size
  released : ∀ base size, Event.release base size ∈ events → after.Dead base size
  survives : ∀ base size purpose, heap.Live base size purpose →
    after.Live base size purpose ∨ Event.release base size ∈ events
  made : ∀ base size purpose, Event.allocate base size purpose ∈ events →
    heap.next.toNat ≤ base.toNat ∧
      (after.Live base size purpose ∨ Event.release base size ∈ events)

namespace Aged

variable {first second third heap after : Heap} {events later : List Event}

theorem trans (h : first.Aged second events) (h' : second.Aged third later) :
    first.Aged third (events ++ later) where
  layout := h'.layout
  next := Nat.le_trans h.next h'.next
  dead base size dead := h'.dead base size (h.dead base size dead)
  released base size member := by
    rcases List.mem_append.mp member with member | member
    · exact h'.dead base size (h.released base size member)
    · exact h'.released base size member
  survives base size purpose live := by
    rw [List.mem_append]
    rcases h.survives base size purpose live with live | gone
    · rcases h'.survives base size purpose live with live | gone
      · exact .inl live
      · exact .inr (.inr gone)
    · exact .inr (.inl gone)
  made base size purpose member := by
    rw [List.mem_append]
    rcases List.mem_append.mp member with member | member
    · obtain ⟨fresh, live | gone⟩ := h.made base size purpose member
      · rcases h'.survives base size purpose live with live | gone
        · exact ⟨fresh, .inl live⟩
        · exact ⟨fresh, .inr (.inr gone)⟩
      · exact ⟨fresh, .inr (.inl gone)⟩
    · obtain ⟨fresh, live | gone⟩ := h'.made base size purpose member
      · exact ⟨Nat.le_trans h.next fresh, .inl live⟩
      · exact ⟨Nat.le_trans h.next fresh, .inr (.inr gone)⟩

/-- No block comes or goes. -/
theorem still (layout : after.Layout) (next : after.next = heap.next)
    (live : ∀ base size purpose, after.Live base size purpose ↔ heap.Live base size purpose)
    (quiet : ∀ event ∈ events, event.concernsBlock = false) : heap.Aged after events where
  layout := layout
  next := Nat.le_of_eq (by rw [next])
  dead base size dead := dead.of_live next fun start count purpose => (live start count purpose).mp
  released base size member := absurd (quiet _ member) (by simp [Event.concernsBlock])
  survives base size purpose alive := .inl ((live base size purpose).mpr alive)
  made base size purpose member := absurd (quiet _ member) (by simp [Event.concernsBlock])

theorem quiet (layout : heap.Layout) (quiet : ∀ event ∈ events, event.concernsBlock = false) :
    heap.Aged heap events :=
  still layout rfl (fun _ _ _ => Iff.rfl) quiet

theorem store {address : Address} {width : Nat} {cell : Cell} (layout : heap.Layout)
    (stored : heap.store address width cell = .ok after) : heap.Aged after [] := by
  have kept := layout.store stored
  obtain ⟨block, start, -, rfl⟩ := store_eq_ok stored
  exact still kept rfl (fun _ _ _ => live_write) (by simp)

theorem allocate {cell : Cell} {purpose : Purpose} {base : Address} (layout : heap.Layout)
    (made : heap.allocate cell purpose = .ok (base, after)) (roomy : after.Roomy) :
    heap.Aged after [.allocate base cell.toInt.toNat purpose] where
  layout := layout.allocate made roomy
  next := next_le_of_allocate made
  dead start size dead := dead.allocate made
  released start size member := by simp at member
  survives start size reason live :=
    .inl ((layout.live_allocate made start size reason).mpr (.inl live))
  made start size reason member := by
    obtain ⟨rfl, rfl, rfl⟩ : start = base ∧ size = cell.toInt.toNat ∧ reason = purpose := by
      simpa using member
    refine ⟨Nat.le_of_eq (by rw [(next_eq_of_allocate made).1]), .inl ?_⟩
    exact (layout.live_allocate made _ _ _).mpr (.inr ⟨rfl, rfl, rfl⟩)

theorem remove (layout : heap.Layout) (address : Address) :
    heap.Aged (heap.remove address) [Action.releaseEvent heap address] where
  layout := layout.remove address
  next := Nat.le_refl _
  dead base size dead := dead.remove address
  released base size member := by
    have reported := List.mem_singleton.mp member
    unfold Action.releaseEvent at reported
    split at reported
    · next block found =>
      obtain ⟨rfl, rfl⟩ := Event.release.inj reported
      exact layout.dead_remove found
    · cases reported
  survives base size purpose live := by
    by_cases here : base = address
    · -- The block that starts there is the one that ends, as no two blocks start at one address.
      subst here
      obtain ⟨block, member, rfl, rfl, rfl⟩ := live
      right
      rw [List.mem_singleton, Action.releaseEvent, layout.blockAt?_base member]
    · exact .inl (live_remove.mpr ⟨live, here⟩)
  made base size purpose member := by
    have reported := List.mem_singleton.mp member
    unfold Action.releaseEvent at reported
    split at reported <;> cases reported

theorem removeAll (layout : heap.Layout) (bases : List Address) :
    heap.Aged (heap.removeAll bases) (Action.releaseEvents heap bases) := by
  induction bases generalizing heap with
  | nil =>
    rw [removeAll_nil]
    exact quiet layout (by simp [Action.releaseEvents])
  | cons base bases ih =>
    rw [removeAll_cons]
    exact (remove layout base).trans (ih (layout.remove base))

end Aged

end Heap

/-! ### Changes of the state -/

namespace Config

variable {config : Config} {s s' s'' : State}

variable (config) in
/-- What any part of an activation does to frames and blocks. As long as the address space lasts,
the heap ages as the journal says. -/
structure Aging (s s' : State) : Prop where
  evolution : config.Evolution s s'
  aged : s'.heap.Roomy → s.heap.Layout → ∃ events,
    s'.journal.toList = s.journal.toList ++ events ∧ s.heap.Aged s'.heap events

namespace Aging

theorem trans (first : config.Aging s s') (second : config.Aging s' s'') : config.Aging s s'' where
  evolution := first.evolution.trans second.evolution
  aged roomy layout := by
    have roomy' := Nat.lt_of_le_of_lt second.evolution.next roomy
    obtain ⟨events, journal, aged⟩ := first.aged roomy' layout
    obtain ⟨later, journal', aged'⟩ := second.aged roomy aged.layout
    exact ⟨events ++ later, by rw [journal', journal, List.append_assoc], aged.trans aged'⟩

/-- The heap does not change. -/
theorem still {events : List Event} (evolution : config.Evolution s s') (heap : s'.heap = s.heap)
    (journal : s'.journal.toList = s.journal.toList ++ events)
    (quiet : ∀ event ∈ events, event.concernsBlock = false) : config.Aging s s' where
  evolution := evolution
  aged _ layout := ⟨events, journal, by rw [heap]; exact .quiet layout quiet⟩

/-- An activation as a whole, at the end of which the arrays of its frame are released. -/
theorem leave {frame : Frame} {calls : List Frame} (inside : config.Aging s.entered s')
    (found : s'.stack.calls = frame :: calls) :
    config.Aging s (Action.afterPop s' frame calls) where
  evolution := inside.evolution.leave found
  aged roomy layout := by
    obtain ⟨events, journal, aged⟩ := inside.aged roomy layout
    refine ⟨[.push (s.stack.depth + 1)] ++ events ++ Action.releaseEvents s'.heap frame.arrays ++
      [.pop (calls.length + 1) frame.ret], ?_, ?_⟩
    · simp [Action.afterPop, State.entered, journal]
    · have entered : s.heap.Aged s.heap [.push (s.stack.depth + 1)] :=
        .quiet layout (by simp [Event.concernsBlock])
      have ended := Heap.Aged.removeAll aged.layout frame.arrays
      exact ((entered.trans aged).trans ended).trans
        (.quiet ended.layout (by simp [Event.concernsBlock]))

end Aging

/-- Every step ages the heap as the journal says. -/
theorem closed_aging (config : Config) : config.Closed config.Aging fun _ => config.Aging where
  remark s event plain := by
    refine .still (config.closed_evolution.remark s plain) rfl Array.toList_push ?_
    simpa using Event.concernsBlock_of_isRemark plain
  bind s var value := .still (config.closed_evolution.bind s var value) rfl
    (List.append_nil _).symm (by simp)
  bindRoot s var value scope := .still (config.closed_evolution.bindRoot s var value scope) rfl
    (List.append_nil _).symm (by simp)
  record s expr value := .still (config.closed_evolution.record s expr value) rfl
    (List.append_nil _).symm (by simp)
  returning s value := .still (config.closed_evolution.returning s value) rfl
    (List.append_nil _).symm (by simp)
  store s address width cell heap stored :=
    ⟨config.closed_evolution.store s address width cell heap stored,
      fun _ layout => ⟨[], (List.append_nil _).symm, .store layout stored⟩⟩
  newArray s size base heap made :=
    ⟨config.closed_evolution.newArray s size base heap made,
      fun roomy layout => ⟨_, Array.toList_push, .allocate layout made roomy⟩⟩
  newBlock s size base heap made :=
    ⟨config.closed_evolution.newBlock s size base heap made,
      fun roomy layout => ⟨_, Array.toList_push, .allocate layout made roomy⟩⟩
  dispatch s id callee args type values found other :=
    .still (config.closed_evolution.dispatch s id callee args type values found other) rfl
      Array.toList_push (by simp [Event.concernsBlock])
  free s id callee args type value found free := by
    refine ⟨config.closed_evolution.free s id callee args type value found free, ?_⟩
    intro _ layout
    have announced : s.heap.Aged s.heap [.dispatch id [value]] :=
      .quiet layout (by simp [Event.concernsBlock])
    exact ⟨_, by simp, announced.trans (.remove layout value.address)⟩
  println s line := .still (config.closed_evolution.println s line) rfl
    (List.append_nil _).symm (by simp)
  read s := .still (config.closed_evolution.read s) rfl (List.append_nil _).symm (by simp)
  refl s := .still (config.closed_evolution.refl s) rfl (List.append_nil _).symm (by simp)
  trans := .trans
  ready s := .still (config.closed_evolution.ready s) rfl (List.append_nil _).symm (by simp)
  fault s other := .still (config.closed_evolution.fault s other) rfl (List.append_nil _).symm
    (by simp)
  fault_trans := .trans
  leave inside := by
    obtain ⟨frame, found⟩ := inside.evolution.frames.calls_of_push
    exact ⟨frame, _, found, inside.leave found⟩
  abandon inside := by
    obtain ⟨frame, found⟩ := inside.evolution.frames.calls_of_push
    exact ⟨frame, _, found, inside.leave found⟩

end Config

/-! ### Released blocks in a run -/

/-- Every range that the journal reports as released is dead. -/
def State.Buried (s : State) : Prop :=
  ∀ base size, Event.release base size ∈ s.journal.toList → s.heap.Dead base size

/-- Every range that the journal reports as released is out of reach. -/
def State.OutOfReach (s : State) : Prop :=
  ∀ base size, Event.release base size ∈ s.journal.toList → s.heap.Refuses base size

theorem State.Buried.outOfReach {s : State} (buried : s.Buried) : s.OutOfReach :=
  fun base size released => (buried base size released).refuses

/-- Every array made between two states was also released in between. -/
def State.ArraysEnded (s s' : State) : Prop :=
  ∃ events, s'.journal.toList = s.journal.toList ++ events ∧
    ∀ base size, Event.allocate base size .array ∈ events → Event.release base size ∈ events

/-- The watch on released blocks, as long as the address space lasts: they stay out of reach, and
when a call returns, all arrays made during the call are among them. -/
def burial : Watch where
  entered s := s.heap.Roomy → s.OutOfReach
  returned _ s' := s'.heap.Roomy → s'.OutOfReach
  callReturned s s' := s'.heap.Roomy → s'.OutOfReach ∧ s.ArraysEnded s'

namespace Config

variable {config : Config} {s s' : State}

/-- What holds at every moment of a run: arrays belong to frames, and released blocks are dead. -/
def Settled (s : State) : Prop :=
  s.heap.Roomy → s.heap.ArraysOwned s.stack.arrays ∧ s.Buried

theorem Aging.settled (aging : config.Aging s s') (settled : Settled s) : Settled s' := by
  intro roomy
  have roomy' : s.heap.Roomy := Nat.lt_of_le_of_lt aging.evolution.next roomy
  obtain ⟨owned, buried⟩ := settled roomy'
  refine ⟨aging.evolution.owned (fun _ => owned) roomy, fun base size released => ?_⟩
  obtain ⟨events, journal, aged⟩ := aging.aged roomy owned.layout
  rw [journal] at released
  rcases List.mem_append.mp released with early | late
  · exact aged.dead base size (buried base size early)
  · exact aged.released base size late

theorem settled_entered (settled : Settled s) : Settled s.entered := by
  intro roomy
  obtain ⟨owned, buried⟩ := settled roomy
  refine ⟨owned, fun base size released => buried base size ?_⟩
  simpa [State.entered] using released

/-- A call leaves none of its arrays behind: those that live after the call were listed before. -/
theorem arraysEnded_of_functionCall {levels : Nat} {callee : FuncId} {values : List Value}
    {type : TypeId} {result : Except Fault Value} (settled : Settled s)
    (run : (config.functionCall (CellC.exec config levels) callee values type).Returns s result s')
    (roomy : s'.heap.Roomy) : s'.OutOfReach ∧ s.ArraysEnded s' := by
  have aging : config.Aging s s' :=
    (config.closed_aging.functionCall_of (F := fun _ => config.Aging)
      (fun _ _ => config.closed_aging.refl _) (fun inside found => inside.leave found)
      (fun inside found => inside.leave found) run).elim
  have roomy' : s.heap.Roomy := Nat.lt_of_le_of_lt aging.evolution.next roomy
  obtain ⟨owned, -⟩ := settled roomy'
  obtain ⟨owned', buried'⟩ := aging.settled settled roomy
  obtain ⟨events, journal, aged⟩ := aging.aged roomy owned.layout
  refine ⟨buried'.outOfReach, events, journal, fun base size made => ?_⟩
  obtain ⟨fresh, live | released⟩ := aged.made base size .array made
  · have listed := owned'.listed base size live
    rw [(returned_of_functionCall run).1.arrays] at listed
    exact absurd (owned.old base listed) (Nat.not_lt.mpr fresh)
  · exact released

theorem unalarmed_burial (settled : Settled s) : config.Unalarmed burial s :=
  config.closed_aging.unalarmed (fun _ _ settled aging => aging.settled settled)
    (fun _ => settled_entered) (fun _ settled roomy => (settled roomy).2.outOfReach)
    (fun _ _ _ settled outcome roomy => (outcome.elim.settled settled roomy).2.outOfReach)
    (fun _ _ _ _ _ _ _ settled run => arraysEnded_of_functionCall settled run) settled

/-! ### What programs are denied -/

variable (config) in
/-- What happens to a program, at some number of levels, where the heap refuses access. To read or
write through a place in the refused range is a fault, and to free an address in it changes nothing.
What is freed otherwise is reported as released. -/
structure Shuns (levels : Nat) : Prop where
  read : ∀ s s' id form type place address base size,
    config.program.expr? id = some ⟨form, type⟩ → config.types.isArray type = false →
    config.place? (CellC.eval config levels) form = some place →
    place.Returns s (.ok address) s' → s'.heap.Refuses base size →
    Heap.Touches address (config.types.width type) base size →
    (CellC.eval config (levels + 1) id).Returns s (.error (.badAddress address)) s'
  write : ∀ s s' s'' id target value type v form type' place address base size,
    config.program.expr? id = some ⟨.binary .assign target value, type⟩ →
    config.program.expr? (config.program.unparen target) = some ⟨form, type'⟩ →
    config.place? (CellC.eval config levels) form = some place →
    (CellC.eval config levels value).Returns s (.ok v) s' →
    place.Returns s' (.ok address) s'' → s''.heap.Refuses base size →
    Heap.Touches address (config.types.width type') base size →
    (CellC.eval config (levels + 1) id).Returns s (.error (.badAddress address)) s''
  free : ∀ s s' id callee args type value,
    config.program.expr? id = some ⟨.call callee args, type⟩ →
    config.setup.primitive? callee = some .free →
    (Config.args (CellC.eval config levels) args).Returns
      { s with journal := s.journal.push (.call callee) } (.ok [value]) s' →
    ∃ s'', (CellC.eval config (levels + 1) id).Returns s (.ok .zero) s'' ∧
      (∀ base size, s'.heap.Refuses base size → base.toNat ≤ value.address.toNat →
        value.address.toNat ≤ base.toNat + size → s''.heap = s'.heap) ∧
      ∀ block, s'.heap.blockAt? value.address = some block →
        Event.release value.address block.size ∈ s''.journal.toList

/-- A call of `FREE` with one argument removes the block that starts there. -/
theorem returns_call_free {eval : ExprId → Action Value}
    {invoke : FuncId → List Value → TypeId → Action Value} {id : ExprId} {callee : FuncId}
    {args : List ExprId} {type : TypeId} {value : Value}
    (declared : config.setup.primitive? callee = some .free)
    (evaluated : (Config.args eval args).Returns
      { s with journal := s.journal.push (.call callee) } (.ok [value]) s') :
    (config.call eval invoke id callee args type).Returns s (.ok .zero)
      { s' with
        heap := s'.heap.remove value.address
        journal := (s'.journal.push (.dispatch id [value])).push
          (Action.releaseEvent s'.heap value.address) } := by
  unfold Action.Returns at evaluated ⊢
  unfold call primitiveCall checkArity
  rw [EStateM.run_bind, Action.run_emit]
  dsimp only
  rw [EStateM.run_bind, evaluated]
  dsimp only
  rw [EStateM.run_bind, Action.run_emit, declared]
  dsimp only
  rw [if_pos (by rfl), EStateM.run_bind, EStateM.run_pure]
  dsimp only
  rw [EStateM.run_bind, Action.run_discard, Action.run_release]
  rfl

theorem shuns (config : Config) (levels : Nat) : config.Shuns levels where
  read s s' id form type place address base size node object placed found refuses touches := by
    refine returns_eval_error node ?_
    rw [expression_eq_readPlace placed]
    exact returns_readPlace_error found object (refuses.access _ _ touches).load
  write s s' s'' id target value type v form type' place address base size node target_node placed
      assigned found refuses touches := by
    refine returns_eval_error node ?_
    show (config.assign (CellC.eval config levels) target value).Returns _ _ _
    rw [assign_eq_writePlace target_node placed]
    exact returns_writePlace_error assigned found (refuses.access _ _ touches).store
  free s s' id callee args type value node declared evaluated := by
    refine ⟨_, returns_eval_ok node (returns_call_free declared evaluated),
      fun base size refuses above within => ?_, fun block live => ?_⟩
    · have vacant := Heap.blockAt?_eq_none_of_release (refuses.release value.address above within)
      exact Heap.remove_eq_self vacant
    · simp [Action.releaseEvent, live]

end Config

/-- **Dangling pointers stay dead.** Once a block of the heap has been released, no access that
touches it is granted and nothing is released at its address, whatever is requested afterwards and
as long as the address space lasts. In every state that requests to an interpreter lead to, and
whenever an evaluation, an execution or a call begins or returns, however deep inside a further
request, this is so for all blocks that the journal reports as released. These include the arrays
that were made during a call when it returns, also with a fault, and what a call of `FREE` releases.
To read or write there through a pointer or subscript is a fault, and to free there changes nothing.
-/
theorem dangling_pointers_stay_dead :
    (∀ past heap, Heap.Run past heap → ∀ earlier base block, (earlier, .release base) ∈ past →
      (earlier.release base).1 = some block → heap.Refuses base block.size) ∧
    ∀ program settings interpreter, Interpreter.Reachable program settings interpreter →
      (interpreter.state.heap.Roomy → interpreter.state.OutOfReach) ∧
      interpreter.config.Unalarmed burial interpreter.state ∧
      ∀ levels, interpreter.config.Shuns levels := by
  refine ⟨fun past heap run earlier base block requested ended => ?_,
    fun program settings interpreter reachable => ?_⟩
  · exact (run.dead_of_release requested ended).refuses
  have settled : Config.Settled interpreter.state := by
    induction reachable with
    | start started =>
      rw [Interpreter.state_of_start started]
      exact fun _ => ⟨.empty, fun _ _ released => absurd released (by simp)⟩
    | @run interpreter _ result s' _ run ih =>
      have outcome := interpreter.config.closed_aging.run run
      exact outcome.elim.settled ih
    | @eval interpreter _ _ result s' _ run ih =>
      have outcome := interpreter.config.closed_aging.eval run
      exact outcome.elim.settled ih
    | @exec interpreter _ _ result s' _ run ih =>
      have outcome := interpreter.config.closed_aging.exec run
      exact outcome.elim.settled ih
  exact ⟨fun roomy => (settled roomy).2.outOfReach, Config.unalarmed_burial settled,
    Config.shuns interpreter.config⟩

/-- A function that keeps the address of its array in the file-scope variable `p`, and an entry
point that calls it. The last two expressions read and free what `p` points to. -/
def keepAddress : Program where
  types := ⟨⟨#[.int, .char, .void, .array .int 2, .pointer .int]⟩⟩
  names := ⟨⟨#["", "FREE", "p", "a", "f", "main"]⟩⟩
  vars := #[⟨⟨2⟩, ⟨4⟩, none⟩, ⟨⟨3⟩, ⟨3⟩, none⟩]
  exprs := #[⟨.ident ⟨0⟩, ⟨4⟩⟩, ⟨.ident ⟨1⟩, ⟨3⟩⟩, ⟨.binary .assign ⟨0⟩ ⟨1⟩, ⟨4⟩⟩,
    ⟨.call ⟨1⟩ [], .int⟩, ⟨.unary .deref ⟨0⟩, .int⟩, ⟨.call ⟨0⟩ [⟨0⟩], .void⟩]
  stmts := #[.decl [⟨1⟩], .expr ⟨2⟩, .compound [⟨0⟩, ⟨1⟩], .return (some ⟨3⟩)]
  funcs := #[⟨⟨1⟩, [], .void, none⟩, ⟨⟨4⟩, [], .int, some ⟨2⟩⟩, ⟨⟨5⟩, [], .int, some ⟨3⟩⟩]
  topLevel := #[.function ⟨0⟩, .variable ⟨0⟩, .function ⟨1⟩, .function ⟨2⟩]

/-- A block is out of reach after its release also if another one, of no bytes, is released next to
it. After a run of the program the address in `p` leads nowhere: `*p` is a fault, and `FREE(p)` ends
no block. -/
theorem dangling_pointers_stay_dead_keepAddress :
    (∃ past heap, Heap.Run past heap ∧ past.map Prod.snd =
        [.allocate 8 .explicit, .release ⟨0x10000018⟩, .release ⟨0x10000000⟩,
          .allocate 0 .explicit, .allocate 12 .array] ∧ heap.Refuses ⟨0x10000000⟩ 12) ∧
    ∃ interpreter, Interpreter.start keepAddress {} = .ok interpreter ∧
      ∃ s', (interpreter.config.run 9).Returns interpreter.state (.ok (.int 0)) s' ∧
      (∃ t, (CellC.eval interpreter.config 9 ⟨4⟩).Returns s'
        (.error (.badAddress ⟨0x10000000⟩)) t) ∧
      ∃ t, (CellC.eval interpreter.config 9 ⟨5⟩).Returns s' (.ok .zero) t ∧ t.heap = s'.heap := by
  constructor
  · have run : Heap.Run _ _ :=
      .step (.allocate 8 .explicit)
        (.step (.release ⟨0x10000018⟩)
          (.step (.release ⟨0x10000000⟩)
            (.step (.allocate 0 .explicit) (.step (.allocate 12 .array) .start (by decide))
              (by decide)) trivial) trivial) (by decide)
    refine ⟨_, _, run, rfl, ?_⟩
    exact dangling_pointers_stay_dead.1 _ _ run _ ⟨0x10000000⟩
      ⟨⟨0x10000000⟩, .array, Array.replicate 12 0⟩ (.tail _ (.tail _ (.head _)))
      (by decide)
  have started : ∃ interpreter, Interpreter.start keepAddress {} = .ok interpreter ∧
      interpreter.config.program = keepAddress ∧
      interpreter.config.setup.primitive? ⟨0⟩ = some .free ∧
      ∃ s', (interpreter.config.run 9).Returns interpreter.state (.ok (.int 0)) s' ∧
        Event.release ⟨0x10000000⟩ 16 ∈ s'.journal.toList ∧ s'.heap.next.toNat = 0x10000018 ∧
        interpreter.config.visibleValue? s'.stack ⟨0⟩ = some (.pointer ⟨0x10000000⟩) :=
    ⟨_, rfl, rfl, rfl, _, rfl, by decide, by decide, rfl⟩
  obtain ⟨interpreter, started, program, primitive, s', run, released, next, visible⟩ := started
  have roomy : s'.heap.Roomy := by
    unfold Heap.Roomy
    rw [next]
    decide
  obtain ⟨outOfReach, -, shuns⟩ := dangling_pointers_stay_dead.2 _ _ _ (.run (.start started) run)
  have refuses : s'.heap.Refuses ⟨0x10000000⟩ 16 := outOfReach roomy _ _ released
  have types : interpreter.config.types = keepAddress.types := by rw [Config.types, program]
  have expr (id : ExprId) : interpreter.config.program.expr? id = keepAddress.expr? id := by
    rw [program]
  have pointer (s : State) (stack : s.stack = s'.stack) : ∃ t,
      (CellC.eval interpreter.config 8 ⟨0⟩).Returns s (.ok (.pointer ⟨0x10000000⟩)) t ∧
        t.heap = s.heap := by
    refine ⟨_, Config.returns_eval_ok (expr ⟨0⟩) ?_, rfl⟩
    show (interpreter.config.varValue ⟨0⟩).run s = .ok (.pointer ⟨0x10000000⟩) s
    rw [Config.varValue, Action.run_get_bind, stack, visible]
    rfl
  refine ⟨interpreter, started, s', run, ?_, ?_⟩
  · obtain ⟨t, evaluated, same⟩ := pointer s' rfl
    have place : Action.Returns (do return (← CellC.eval interpreter.config 8 ⟨0⟩).address) s'
        (.ok ⟨0x10000000⟩) t := by
      unfold Action.Returns at evaluated ⊢
      rw [EStateM.run_bind, evaluated]
      rfl
    have touches : Heap.Touches ⟨0x10000000⟩ (interpreter.config.types.width .int) ⟨0x10000000⟩
        16 := by
      rw [types]
      exact ⟨0x10000000, by decide, by decide, by decide, by decide⟩
    have read := (shuns 8).read _ _ ⟨4⟩ _ .int _ _ _ 16 (expr ⟨4⟩) (by rw [types]; rfl) rfl place
      (same ▸ refuses) touches
    exact ⟨t, read⟩
  · obtain ⟨t, evaluated, same⟩ := pointer { s' with journal := s'.journal.push (.call ⟨0⟩) } rfl
    have argument : (Config.args (CellC.eval interpreter.config 8) [⟨0⟩]).Returns
        { s' with journal := s'.journal.push (.call ⟨0⟩) } (.ok [.pointer ⟨0x10000000⟩]) t := by
      unfold Action.Returns at evaluated ⊢
      rw [Config.args, EStateM.run_bind, evaluated]
      rfl
    obtain ⟨u, freed, unchanged, -⟩ := (shuns 8).free _ _ _ _ _ _ _ (expr ⟨5⟩) primitive argument
    refine ⟨u, freed, ?_⟩
    rw [unchanged ⟨0x10000000⟩ 16 (same ▸ refuses) (by decide) (by decide), same]

end CellC
