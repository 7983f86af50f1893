import CellC.Proofs.DanglingPointers
import CellC.Proofs.Heap.Freshness
import CellC.Proofs.Journal.Brackets
import CellC.Proofs.Parts
import CellC.Proofs.Sessions

/-!
# The journal tells what lives

Whoever reads the journal from the beginning, adds a block for each one that was made and strikes
out the one that starts where a release is noted, ends up with the live blocks, as long as the
address space lasts. That an address was to be released at which no block starts is noted, too, but
nothing is struck out then. So an array that the program frees is struck out once, although it is
released a second time when its frame is popped.

## Main definitions

* `replay`: the blocks that are left after some events
* `Heap.ToldBy`: the live blocks of a heap are those that are left after some events
* `State.Faithful`: the journal tells which blocks live
* `bookkeeping`: the watch on frames and blocks in the journal

## Main results

* `Heap.ToldBy.allocate`, `Heap.ToldBy.release`, `Heap.ToldBy.releaseAll`: what is done to blocks is
  told by what is noted of it
* `journal_tells_frames_and_blocks`: in every run, the journal is in brackets and tells which blocks
  live
-/

namespace CellC

/-! ### Reading the journal -/

/-- What the journal has of a block: where it starts, its size and what it was made for. -/
def Block.entry (block : Block) : Address × Nat × Purpose := (block.base, block.size, block.purpose)

/-- The blocks that are left after an event. -/
def Event.replay (entries : List (Address × Nat × Purpose)) : Event → List (Address × Nat × Purpose)
  | allocate base size purpose => (base, size, purpose) :: entries
  | release base _ => entries.filter (·.1 ≠ base)
  | scan | setup _ _ _ | run | entryReturned _ | call _ | dispatch _ _ | push _ | pop _ _ | exec _
  | declare _ _ | releaseMissing _ | malformedInput _ _ | inputUnavailable => entries

/-- The blocks that are left after some events, the youngest first. -/
def replay (events : List Event) : List (Address × Nat × Purpose) :=
  events.foldl Event.replay []

/-- Whether a block was made. -/
def Event.isAllocation : Event → Bool
  | allocate _ _ _ => true
  | _ => false

/-- Whether a block was ended. -/
def Event.isRelease : Event → Bool
  | release _ _ => true
  | _ => false

theorem replay_concat (events : List Event) (event : Event) :
    replay (events ++ [event]) = event.replay (replay events) := by
  unfold replay
  rw [List.foldl_append, List.foldl_cons, List.foldl_nil]

/-- Events that report neither that a block was made nor that one was ended leave all blocks. -/
theorem Event.replay_of_not_concernsBlock {event : Event} (quiet : event.concernsBlock = false)
    (entries : List (Address × Nat × Purpose)) : event.replay entries = entries := by
  cases event <;> first | rfl | cases quiet

namespace Heap

/-- The live blocks are those that are left after the events, and there are as many of them as there
were allocations beyond releases. -/
structure ToldBy (heap : Heap) (events : List Event) : Prop where
  layout : heap.Layout
  blocks : replay events = heap.blocks.map Block.entry
  count : events.countP Event.isAllocation = events.countP Event.isRelease + heap.count

namespace ToldBy

variable {heap after : Heap} {events : List Event}

theorem empty : ToldBy {} [] := ⟨.empty, rfl, rfl⟩

variable (told : heap.ToldBy events)
include told

/-- Nothing happened to any block. -/
theorem note {event : Event} (quiet : event.concernsBlock = false) :
    heap.ToldBy (events ++ [event]) where
  layout := told.layout
  blocks := by rw [replay_concat, event.replay_of_not_concernsBlock quiet, told.blocks]
  count := by
    have silent : event.isAllocation = false ∧ event.isRelease = false := by
      cases event <;> first | exact ⟨rfl, rfl⟩ | cases quiet
    simp [silent, told.count]

theorem store {address : Address} {width : Nat} {cell : Cell}
    (stored : heap.store address width cell = .ok after) : after.ToldBy events := by
  have layout := told.layout.store stored
  obtain ⟨block, start, -, rfl⟩ := store_eq_ok stored
  rw [told.layout.write_eq] at layout ⊢
  refine ⟨layout, ?_, ?_⟩
  · rw [told.blocks, List.map_map]
    refine List.map_congr_left fun other _ => ?_
    by_cases here : other.base = block.base <;> simp [Block.entry, Block.size, here]
  · rw [told.count, Heap.count, Heap.count, List.length_map]

theorem allocate {size : Cell} {purpose : Purpose} {base : Address}
    (made : heap.allocate size purpose = .ok (base, after)) (roomy : after.Roomy) :
    after.ToldBy (events ++ [.allocate base size.toInt.toNat purpose]) := by
  have layout := told.layout.allocate made roomy
  obtain ⟨-, -, rfl, rfl⟩ := told.layout.allocate_eq made
  refine ⟨layout, ?_, ?_⟩
  · rw [replay_concat, told.blocks]
    simp [Event.replay, Block.entry, Block.size]
  · simp [Event.isAllocation, Event.isRelease, told.count, Heap.count, Nat.add_assoc]

/-- The block that starts at the address is struck out, if there is one. -/
theorem release (address : Address) :
    (heap.remove address).ToldBy (events ++ [Action.releaseEvent heap address]) := by
  unfold Action.releaseEvent
  cases found : heap.blockAt? address with
  | none =>
    rw [remove_eq_self found]
    exact told.note rfl
  | some block =>
    refine ⟨told.layout.remove address, ?_, ?_⟩
    · rw [replay_concat, told.blocks, Event.replay, List.filter_map]
      rfl
    · have fewer := count_remove told.layout.nodup found
      have balance := told.count
      simp only [List.countP_append, List.countP_singleton, Event.isAllocation, Event.isRelease]
      simp only [Bool.false_eq_true, if_false, if_true]
      omega

theorem releaseAll (bases : List Address) :
    (heap.removeAll bases).ToldBy (events ++ Action.releaseEvents heap bases) := by
  induction bases generalizing heap events with
  | nil =>
    rw [removeAll_nil, Action.releaseEvents, List.append_nil]
    exact told
  | cons base bases ih =>
    rw [removeAll_cons, Action.releaseEvents, List.append_cons]
    exact ih (told.release base)

end ToldBy

end Heap

/-! ### States -/

/-- The journal tells which blocks live. -/
def State.Faithful (s : State) : Prop := s.heap.ToldBy s.journal.toList

/-- As long as the address space lasts, the journal goes on to tell which blocks live. -/
structure State.KeepsBooks (s t : State) : Prop where
  next : s.heap.next.toNat ≤ t.heap.next.toNat
  faithful : t.heap.Roomy → s.Faithful → t.Faithful

namespace State.KeepsBooks

variable {s t u : State}

/-- Neither heap nor journal changed. -/
theorem still (heap : t.heap = s.heap) (journal : t.journal = s.journal) : s.KeepsBooks t where
  next := Nat.le_of_eq (by rw [heap])
  faithful _ told := by rwa [Faithful, heap, journal]

/-- Something that does not concern blocks was noted. -/
theorem note {event : Event} (quiet : event.concernsBlock = false) (heap : t.heap = s.heap)
    (journal : t.journal = s.journal.push event) : s.KeepsBooks t where
  next := Nat.le_of_eq (by rw [heap])
  faithful _ told := by
    rw [Faithful, heap, journal, Array.toList_push]
    exact told.note quiet

theorem trans (h₁ : s.KeepsBooks t) (h₂ : t.KeepsBooks u) : s.KeepsBooks u where
  next := Nat.le_trans h₁.next h₂.next
  faithful roomy told := h₂.faithful roomy (h₁.faithful (Nat.lt_of_le_of_lt h₂.next roomy) told)

/-- The state stays faithful if it was faithful as long as the address space lasted. -/
theorem kept (h : s.KeepsBooks t) (told : s.heap.Roomy → s.Faithful) (roomy : t.heap.Roomy) :
    t.Faithful :=
  h.faithful roomy (told (Nat.lt_of_le_of_lt h.next roomy))

theorem allocate {size : Cell} {purpose : Purpose} {base : Address} {heap : Heap}
    (made : s.heap.allocate size purpose = .ok (base, heap)) (same : t.heap = heap)
    (journal : t.journal = s.journal.push (.allocate base size.toInt.toNat purpose)) :
    s.KeepsBooks t where
  next := by
    rw [same]
    exact Heap.next_le_of_allocate made
  faithful roomy told := by
    rw [same] at roomy
    rw [Faithful, same, journal, Array.toList_push]
    exact told.allocate made roomy

theorem entered (s : State) : s.KeepsBooks s.entered :=
  have quiet : (Event.push (s.stack.depth + 1)).concernsBlock = false := rfl
  .note quiet rfl rfl

/-- When a frame is popped, its arrays are struck out. -/
theorem leave {s' : State} (inside : s.entered.KeepsBooks s') (frame : Frame)
    (calls : List Frame) : s.KeepsBooks (Action.afterPop s' frame calls) where
  next := inside.next
  faithful roomy told := by
    have within : s'.Faithful := ((entered s).trans inside).faithful roomy told
    have quiet : (Event.pop (calls.length + 1) frame.ret).concernsBlock = false := rfl
    have ended := (within.releaseAll frame.arrays).note quiet
    simpa [Faithful, Action.afterPop] using ended

end State.KeepsBooks

namespace Config

variable {config : Config}

/-- What a step does to blocks is noted. -/
theorem steps_keepsBooks (config : Config) : config.Steps State.KeepsBooks where
  remark _ _ plain := .note (Event.concernsBlock_of_isRemark plain) rfl rfl
  bind _ _ _ := .still rfl rfl
  bindRoot _ _ _ _ := .still rfl rfl
  record _ _ _ := .still rfl rfl
  returning _ _ := .still rfl rfl
  store s _ _ _ heap stored := by
    refine ⟨?_, fun _ told => Heap.ToldBy.store told stored⟩
    obtain ⟨block, start, -, rfl⟩ := Heap.store_eq_ok stored
    exact Nat.le_refl _
  newArray _ _ _ _ made := .allocate made rfl rfl
  newBlock _ _ _ _ made := .allocate made rfl rfl
  dispatch _ _ _ _ _ _ _ _ := .note rfl rfl rfl
  free s id _ _ _ value _ _ := by
    refine ⟨Nat.le_refl _, fun _ told => ?_⟩
    have announced : s.heap.ToldBy (s.journal.toList ++ [.dispatch id [value]]) := told.note rfl
    simpa [State.Faithful] using announced.release value.address
  println _ _ := .still rfl rfl
  read _ := .still rfl rfl

variable (config) in
/-- No frame below is disturbed, frames are noted in brackets, and blocks are as they come and go.
-/
def Books (s t : State) : Prop :=
  s.stack.Undisturbed config.setup t.stack ∧ s.Bracketed t ∧ s.KeepsBooks t

/-- Books are kept of whatever happens. -/
theorem closed_books (config : Config) : config.Closed config.Books fun _ => config.Books :=
  closed_of_steps (config.steps_bracketed.and config.steps_keepsBooks)
    (fun _ => ⟨.still rfl rfl, .still rfl rfl⟩)
    (fun first second => ⟨first.1.trans second.1, first.2.trans second.2⟩)
    (fun _ => ⟨.still rfl rfl, .still rfl rfl⟩)
    fun frame calls found inside => ⟨inside.1.leave found, inside.2.leave frame calls⟩

end Config

/-! ### Runs -/

/-- The watch on the journal: pushes and pops are noted in brackets, and as long as the address
space lasts the journal tells which blocks live. -/
def bookkeeping : Watch where
  entered s := s.heap.Roomy → s.Faithful
  returned s s' := s.Bracketed s' ∧ (s'.heap.Roomy → s'.Faithful)
  callReturned s s' := s.Bracketed s' ∧ (s'.heap.Roomy → s'.Faithful)

namespace Config

variable {config : Config} {levels : Nat} {s s' : State}

theorem unalarmed_bookkeeping (told : s.heap.Roomy → s.Faithful) :
    config.Unalarmed bookkeeping s := by
  have closed := config.closed_books
  refine closed.unalarmed (I := fun s => s.heap.Roomy → s.Faithful)
    (fun _ _ told step => step.2.2.kept told) (fun s told => (State.KeepsBooks.entered s).kept told)
    (fun _ told => told) (fun _ _ _ told outcome => ?_) (fun _ _ _ _ _ _ _ told returned => ?_) told
  · exact ⟨outcome.elim.2.1, outcome.elim.2.2.kept told⟩
  · have called := (closed.functionCall_of (F := fun _ => config.Books)
      (fun s _ => closed.refl s) closed.afterPop closed.afterPop returned).elim
    exact ⟨called.2.1, called.2.2.kept told⟩

/-- Whatever an interpreter is asked for is noted in brackets and keeps books. -/
theorem booked_of_demand (request : Request) (demand : request.IsDemand)
    {result : Except Fault request.Answer}
    (returned : (config.carryOut levels request).Returns s result s') :
    s.Bracketed s' ∧ s.KeepsBooks s' := by
  have closed := config.closed_books
  cases request with
  | run => exact (closed.run returned).elim.2
  | evaluate id => exact (closed.eval returned).elim.2
  | execute id => exact (closed.exec returned).elim.2
  | operate | iterate | invoke => exact demand.elim

end Config

/-- In every state that an interpreter comes to by requests, as long as the address space lasts, the
blocks that its journal leaves are those that live, and there were as many releases fewer than
allocations as there are live blocks. A request, whether it ends with a value or a fault, notes its
pushes and pops in brackets. In its course, all this is so whenever an evaluation, an execution or a
call begins or returns, however deep inside. -/
theorem journal_tells_frames_and_blocks {program : Program} {settings : Settings}
    {interpreter : Interpreter} (reachable : Interpreter.Reachable program settings interpreter) :
    (interpreter.state.heap.Roomy →
      replay interpreter.state.journal.toList =
          interpreter.state.heap.blocks.map Block.entry ∧
        interpreter.state.journal.toList.countP Event.isAllocation =
          interpreter.state.journal.toList.countP Event.isRelease +
            interpreter.state.heap.count) ∧
    (∀ levels (request : Request), request.IsDemand → ∀ result s',
      (interpreter.config.carryOut levels request).Returns interpreter.state result s' →
        ∃ events, s'.journal.toList = interpreter.state.journal.toList ++ events ∧
          Brackets interpreter.state.stack.depth events) ∧
    interpreter.config.Unalarmed bookkeeping interpreter.state := by
  have told : interpreter.state.heap.Roomy → interpreter.state.Faithful := by
    induction reachable with
    | start started =>
      rw [Interpreter.state_of_start started]
      exact fun _ => .empty
    | run _ returned ih =>
      exact (Config.booked_of_demand .run trivial returned).2.kept ih
    | eval _ returned ih =>
      exact (Config.booked_of_demand (.evaluate _) trivial returned).2.kept ih
    | exec _ returned ih =>
      exact (Config.booked_of_demand (.execute _) trivial returned).2.kept ih
  exact ⟨fun roomy => ⟨(told roomy).blocks, (told roomy).count⟩,
    fun levels request demand result s' returned =>
      (Config.booked_of_demand request demand returned).1.added,
    Config.unalarmed_bookkeeping told⟩

/-- An array is freed by the program and released once more when its frame is popped, and the fault
that pops the frame ends the caller, too. -/
theorem journal_tells_frames_and_blocks_declareAndFail : ∃ interpreter s',
    Interpreter.start declareAndFail {} = .ok interpreter ∧
      (interpreter.config.run 9).Returns interpreter.state (.error (.unsupportedStmt "break")) s' ∧
      s'.journal.toList.filter (fun event => event.concernsFrame || event.concernsBlock) =
        [.push 2, .push 3, .allocate ⟨0x10000000⟩ 16 .array, .allocate ⟨0x10000018⟩ 8 .explicit,
          .release ⟨0x10000000⟩ 16, .pop 2 .zero, .pop 1 .zero] ∧
      .releaseMissing ⟨0x10000000⟩ ∈ s'.journal.toList ∧
      replay s'.journal.toList = [(⟨0x10000018⟩, 8, .explicit)] ∧
      Brackets 1 s'.journal.toList := by
  have ran : ∃ interpreter s', Interpreter.start declareAndFail {} = .ok interpreter ∧
      (interpreter.config.run 9).Returns interpreter.state (.error (.unsupportedStmt "break")) s' ∧
      s'.journal.toList.filter (fun event => event.concernsFrame || event.concernsBlock) =
        [.push 2, .push 3, .allocate ⟨0x10000000⟩ 16 .array, .allocate ⟨0x10000018⟩ 8 .explicit,
          .release ⟨0x10000000⟩ 16, .pop 2 .zero, .pop 1 .zero] ∧
      .releaseMissing ⟨0x10000000⟩ ∈ s'.journal.toList ∧
      s'.heap.next = ⟨0x10000028⟩ ∧
      s'.heap.blocks.map Block.entry = [(⟨0x10000018⟩, 8, .explicit)] :=
    ⟨_, _, rfl, rfl, rfl, by decide +kernel, rfl, rfl⟩
  obtain ⟨interpreter, s', started, run, noted, missing, next, blocks⟩ := ran
  have reachable : Interpreter.Reachable declareAndFail {} interpreter := .start started
  obtain ⟨-, requests, -⟩ := journal_tells_frames_and_blocks reachable
  obtain ⟨told, -⟩ := journal_tells_frames_and_blocks (.run reachable run)
  have roomy : s'.heap.Roomy := by
    rw [Heap.Roomy, next]
    decide
  obtain ⟨events, added, brackets⟩ := requests 9 .run trivial _ s' run
  rw [Interpreter.state_of_start started] at added brackets
  exact ⟨interpreter, s', started, run, noted, missing, (told roomy).1.trans blocks,
    added ▸ brackets⟩

end CellC
