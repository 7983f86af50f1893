import CellC.Proofs.Heap.Storing
import CellC.Proofs.Parentheses
import CellC.Proofs.Repetition

/-!
# Assignments

An assignment finds the place of its target, stores a value there that the type of the target has
read, and changes nothing else. A variable lives in one of two frames and an object between the
bytes of a block, and both are read where they were written. So the target evaluates to what was
assigned, unless finding its place again leads somewhere else.

## Main definitions

* `Place`: a variable, or the bytes of an object
* `Config.FindsTarget`: how the place of a target is found
* `Config.StoresOnly`: one state follows from another one by storing a value at a place

## Main results

* `Config.returns_assign`: what a successful assignment does
* `assignment_round_trip`: a target holds what was assigned to it, and nothing else is changed
-/

namespace CellC

/-! ### Places -/

/-- The frames, that of the innermost activation first and the file-scope frame last. -/
def CallStack.frames (stack : CallStack) : List Frame := stack.calls ++ [stack.root]

/-- The value of a variable in the frame at the given position. -/
def CallStack.valueIn? (stack : CallStack) (i : Nat) (var : VarId) : Option Value :=
  stack.frames[i]?.bind (·.value? var)

/-- What an assignment gives a value to. -/
inductive Place
  /-- A variable. -/
  | variable (var : VarId)
  /-- The bytes from an address on. -/
  | object (address : Address) (width : Nat)
deriving DecidableEq

/-- The bytes from an address on lie apart from the place. -/
def Place.Apart (address : Address) (width : Nat) : Place → Prop
  | .variable _ => True
  | .object start size =>
    address.toNat + width ≤ start.toNat ∨ start.toNat + size ≤ address.toNat

namespace Config

/-- The position of the frame in which a variable is given a value. -/
def home (config : Config) (stack : CallStack) (var : VarId) : Nat :=
  if config.setup.hasFileScope var && !stack.top.binds var then stack.calls.length else 0

/-- From `s` the place is found to which an assignment to `target` gives a value. Only the parts of
the target are evaluated for that, and no parentheses around it. -/
inductive FindsTarget (config : Config) (target : ExprId) (s : State) : Place → State → Prop
  | variable {var type} :
    config.program.expr? (config.program.unparen target) = some ⟨.ident var, type⟩ →
    FindsTarget config target s (.variable var) s
  | object {address t} : config.FindsPlace (config.program.unparen target) s address t →
    FindsTarget config target s
      (.object address (Heap.accessWidth (config.types.width (config.program.exprType target)))) t

/-- The second state has the value at the place and is otherwise like the first one, apart from what
is recorded for expressions: every other variable has its value in every frame, every access that
lies apart from the place loads what it did, and the blocks are where they were. -/
structure StoresOnly (config : Config) (place : Place) (value : Value) (s t : State) : Prop where
  vars : ∀ i var, t.stack.valueIn? i var =
    if place = .variable var ∧ i = config.home s.stack var then some value
    else s.stack.valueIn? i var
  frames : t.stack.frames.map (fun frame => (frame.ret, frame.arrays)) =
    s.stack.frames.map fun frame => (frame.ret, frame.arrays)
  loads : ∀ address width, place.Apart address (Heap.accessWidth width) →
    t.heap.load address width = s.heap.load address width
  extents : t.heap.blocks.map Block.extent = s.heap.blocks.map Block.extent
  next : t.heap.next = s.heap.next
  input : t.input = s.input
  printer : t.printer = s.printer
  globalsReady : t.globalsReady = s.globalsReady
  journal : t.journal = s.journal

variable {config : Config} {place : Place} {value v : Value} {s t : State}

/-! ### Frames -/

section Frames

variable {stack stack' : CallStack} {i : Nat} {var : VarId} {f : Frame → Frame}

theorem frames_modifyTop (f : Frame → Frame) (stack : CallStack) :
    (stack.modifyTop f).frames = stack.frames.modify 0 f := by
  obtain ⟨root, _ | ⟨frame, calls⟩⟩ := stack <;> rfl

theorem frames_modifyRoot (f : Frame → Frame) (stack : CallStack) :
    (stack.modifyRoot f).frames = stack.frames.modify stack.calls.length f := by
  obtain ⟨root, calls⟩ := stack
  show calls ++ [f root] = (calls ++ [root]).modify calls.length f
  induction calls with
  | nil => rfl
  | cons frame calls ih =>
    rw [List.cons_append, List.cons_append, List.length_cons, List.modify_succ_cons, ih]

/-- What a change of one frame leaves alone is the same in all frames. -/
theorem map_frames_modify {α : Type} {g : Frame → α}
    (changed : stack'.frames = stack.frames.modify i f) (same : ∀ frame, g (f frame) = g frame) :
    stack'.frames.map g = stack.frames.map g := by
  rw [changed]
  refine List.ext_getElem? fun j => ?_
  rw [List.getElem?_map, List.getElem?_map]
  by_cases here : i = j
  · subst here
    rw [List.getElem?_modify_eq]
    cases stack.frames[i]? with
    | none => rfl
    | some frame => exact congrArg some (same frame)
  · rw [List.getElem?_modify_ne _ _ here]

/-- Binding a variable in one frame concerns no other variable, and none in other frames. -/
theorem valueIn?_bind (within : i < stack.frames.length)
    (changed : stack'.frames = stack.frames.modify i (·.bind var value)) (j : Nat) (other : VarId) :
    stack'.valueIn? j other =
      if var = other ∧ j = i then some value else stack.valueIn? j other := by
  unfold CallStack.valueIn?
  rw [changed]
  by_cases here : i = j
  · subst here
    rw [List.getElem?_modify_eq, List.getElem?_eq_getElem within]
    simp [Frame.value?_bind]
  · rw [List.getElem?_modify_ne _ _ here, if_neg fun both => here both.2.symm]

theorem valueIn?_record (stack : CallStack) (id : ExprId) (value : Value) (i : Nat) (var : VarId) :
    (stack.modifyTop (·.record id value)).valueIn? i var = stack.valueIn? i var := by
  obtain ⟨root, _ | ⟨frame, calls⟩⟩ := stack <;> cases i <;> rfl

end Frames

/-! ### Stores -/

/-- What is recorded for expressions is left aside. -/
theorem StoresOnly.record (h : config.StoresOnly place value s t) (id : ExprId) (w : Value) :
    config.StoresOnly place value s (t.record id w) where
  vars i var := (valueIn?_record t.stack id w i var).trans (h.vars i var)
  frames := (map_frames_modify (frames_modifyTop (·.record id w) t.stack) fun _ => rfl).trans
    h.frames
  loads := h.loads
  extents := h.extents
  next := h.next
  input := h.input
  printer := h.printer
  globalsReady := h.globalsReady
  journal := h.journal

/-- The file-scope frame is looked at if the innermost activation does not bind the variable. -/
theorem visibleValue?_modifyRoot {stack : CallStack} {var : VarId}
    (outside : (config.setup.hasFileScope var && !stack.top.binds var) = true) (value : Value) :
    config.visibleValue? (stack.modifyRoot (·.bind var value)) var = some value := by
  obtain ⟨fileScope, unbound⟩ : config.setup.hasFileScope var = true ∧
      stack.top.value? var = none := by
    simpa [Frame.binds_eq_isSome] using outside
  have bound : (stack.root.bind var value).value? var = some value := by
    rw [Frame.value?_bind, if_pos rfl]
  obtain ⟨root, _ | ⟨frame, calls⟩⟩ := stack
  · have top : ((⟨root, []⟩ : CallStack).modifyRoot (·.bind var value)).top.value? var =
        some value := bound
    exact visibleValue?_of_top top
  · have top : ((⟨root, frame :: calls⟩ : CallStack).modifyRoot (·.bind var value)).top.value? var =
        none := unbound
    unfold visibleValue?
    rw [top]
    dsimp only
    rw [if_pos fileScope]
    exact bound

/-- A variable that is given a value gets it in one frame, and it is seen there. -/
theorem storesOnly_assignVar {var : VarId}
    (assigned : (config.assignVar var value).Returns s (.ok ()) t) :
    config.StoresOnly (.variable var) value s t ∧
      config.visibleValue? t.stack var = some value := by
  obtain ⟨stack, rfl, changed, seen⟩ : ∃ stack, t = { s with stack } ∧
      stack.frames = s.stack.frames.modify (config.home s.stack var) (·.bind var value) ∧
      config.visibleValue? stack var = some value := by
    unfold assignVar Action.Returns at assigned
    rw [Action.run_get_bind] at assigned
    unfold home
    split at assigned
    · next outside =>
      cases assigned
      rw [if_pos outside]
      exact ⟨_, rfl, frames_modifyRoot _ _, visibleValue?_modifyRoot outside value⟩
    · next inside =>
      cases assigned
      rw [if_neg inside]
      refine ⟨_, rfl, frames_modifyTop _ _, ?_⟩
      apply visibleValue?_of_top
      rw [CallStack.top_modifyTop, Frame.value?_bind, if_pos rfl]
  have within : config.home s.stack var < s.stack.frames.length := by
    unfold home CallStack.frames
    rw [List.length_append]
    split
    · exact Nat.lt_succ_self _
    · exact Nat.succ_pos _
  refine ⟨?_, seen⟩
  exact {
    vars := fun i other => by
      rw [valueIn?_bind within changed]
      by_cases same : var = other
      · subst same
        simp
      · rw [if_neg fun both => same both.1, if_neg fun both => same (Place.variable.inj both.1)]
    frames := map_frames_modify changed fun _ => rfl
    loads := fun _ _ _ => rfl
    extents := rfl
    next := rfl
    input := rfl
    printer := rfl
    globalsReady := rfl
    journal := rfl }

theorem storesOnly_store {address : Address} {width : Nat} {cell : Cell} {heap : Heap}
    (stored : s.heap.store address width cell = .ok heap) :
    config.StoresOnly (.object address (Heap.accessWidth width)) value s { s with heap } where
  vars i var := by rw [if_neg (by rintro ⟨⟨⟩, -⟩)]
  frames := rfl
  loads _ _ apart := Heap.load_store_apart stored apart
  extents := (Heap.extents_store stored).1
  next := (Heap.extents_store stored).2
  input := rfl
  printer := rfl
  globalsReady := rfl
  journal := rfl

/-! ### What a successful assignment does -/

theorem returns_storeAt {address : Address} {type : TypeId}
    (stored : (config.storeAt address type value).Returns s (.ok ()) t) :
    ∃ heap, s.heap.store address (config.types.width type) value.cell = .ok heap ∧
      t = { s with heap } := by
  unfold storeAt Action.Returns at stored
  rw [Action.run_store] at stored
  cases written : s.heap.store address (config.types.width type) value.cell with
  | ok heap =>
    rw [written] at stored
    cases stored
    exact ⟨heap, rfl, rfl⟩
  | error fault =>
    rw [written] at stored
    cases stored

/-- The value is evaluated, then the place of the target is found, and what the type of the target
makes of the value is stored there. -/
theorem returns_assign {eval : ExprId → Action Value} {target e : ExprId} {s' : State}
    (returned : (config.assign eval target e).Returns s (.ok v) s') :
    ∃ w t expr, (eval e).Returns s (.ok w) t ∧
      config.program.expr? (config.program.unparen target) = some expr ∧
      v = config.types.view expr.type w.cell ∧
      ((∃ var u, expr.form = .ident var ∧ (config.assignVar var v).Returns t (.ok ()) u ∧
          s' = u.record (config.program.unparen target) v) ∨
        ∃ place address u heap, config.place? eval expr.form = some place ∧
          place.Returns t (.ok address) u ∧
          u.heap.store address (config.types.width expr.type) v.cell = .ok heap ∧
          s' = ({ u with heap } : State).record (config.program.unparen target) v) := by
  cases found : config.program.expr? (config.program.unparen target) with
  | none =>
    obtain ⟨w, t, -, rest⟩ := returned.of_bind
    dsimp only at rest
    rw [found] at rest
    cases rest
  | some expr =>
    obtain ⟨form, type⟩ := expr
    cases placed : config.place? eval form with
    | some place =>
      rw [assign_eq_writePlace found placed] at returned
      obtain ⟨w, t, evaluated, rest⟩ := returned.of_bind
      obtain ⟨address, u, finds, rest⟩ := rest.of_bind
      obtain ⟨⟨⟩, r, stored, rest⟩ := rest.of_bind
      obtain ⟨heap, written, rfl⟩ := returns_storeAt stored
      obtain ⟨rfl, rfl⟩ := returns_recorded rest
      exact ⟨w, t, _, evaluated, rfl, rfl, .inr ⟨place, address, u, heap, placed, finds, written,
        rfl⟩⟩
    | none =>
      obtain ⟨w, t, evaluated, rest⟩ := returned.of_bind
      dsimp only at rest
      rw [found, Action.ofOption, pure_bind] at rest
      cases form with
      | ident var =>
        obtain ⟨⟨⟩, u, assigned, rest⟩ := rest.of_bind
        obtain ⟨rfl, rfl⟩ := returns_recorded rest
        exact ⟨w, t, _, evaluated, rfl, rfl, .inl ⟨var, u, rfl, assigned, rfl⟩⟩
      | index => cases placed
      | unary op operand =>
        cases op with
        | deref => cases placed
        | neg | plus | bitNot | not | addrOf => cases rest
      | intLit | charLit | strLit | paren | sizeOf | binary | call | cast => cases rest

/-! ### The target again -/

/-- With the parentheses around it, an expression still evaluates to what it does. -/
theorem evaluates_of_unparen {id : ExprId} {result : Except Fault Value}
    (evaluated : config.Evaluates (config.program.unparen id) s result t) :
    ∃ t', config.Evaluates id s result t' := by
  obtain ⟨levels, returned⟩ := evaluated
  have itself : config.program.Echoes (CellC.eval config levels (config.program.unparen id))
      (CellC.eval config levels (config.program.unparen id)) :=
    (follows_trees config.congruence_parens config levels).1 _
  obtain ⟨t', returned, -⟩ := unparen_echoes itself (.refl config.congruence_parens s) returned
  exact ⟨t', _, returned⟩

/-- Places are found again, as long as the parts that say where they are can be repeated. -/
theorem repeats_place {eval : ExprId → Action Value} {form : ExprForm} {place : Action Address}
    (heval : ∀ part ∈ form.parts, config.Repeats (eval part))
    (placed : config.place? eval form = some place) : config.Repeats place := by
  unfold place? at placed
  split at placed
  · cases placed
    exact repeats_subscript (heval _ List.mem_cons_self)
      (heval _ (List.mem_cons_of_mem _ List.mem_cons_self))
  · cases placed
    exact (heval _ List.mem_cons_self).bind fun _ => .pure _
  · cases placed

theorem evaluates_ident {id : ExprId} {var : VarId} {type : TypeId}
    (found : config.program.expr? id = some ⟨.ident var, type⟩)
    (seen : config.visibleValue? s.stack var = some value) :
    config.Evaluates id s (.ok value) (s.record id value) := by
  have looked : (config.varValue var).Returns s (.ok value) s := by
    unfold varValue Action.Returns
    rw [Action.run_get_bind, seen]
    rfl
  exact ⟨1, returns_eval_ok found looked⟩

/-- An object that has been stored is found again and loaded, whatever was recorded in between. -/
theorem evaluates_stored {id a : ExprId} {form : ExprForm} {type : TypeId} {levels : Nat}
    {place : Action Address} {address : Address} {heap : Heap} {cell : Cell}
    (found : config.program.expr? id = some ⟨form, type⟩)
    (placed : config.place? (CellC.eval config levels) form = some place)
    (calm : ∀ part ∈ form.parts, config.program.Calm part)
    (object : config.types.isArray type = false) (finds : place.Returns s (.ok address) t)
    (value : v = config.types.view type cell)
    (stored : t.heap.store address (config.types.width type) v.cell = .ok heap) :
    ∃ t', config.Evaluates id ((({ t with heap } : State).record id v).record a v) (.ok v) t' := by
  let stored' : State := { t with heap }
  have same : config.SameView t ((stored'.record id v).record a v) :=
    (config.sameView_record stored' id v).trans (config.sameView_record _ a v)
  obtain ⟨kept, again⟩ := repeats_place (fun part member => repeats_eval (calm part member) levels)
    placed finds
  obtain ⟨r, finds', -, heap'⟩ := again (kept.trans same)
  obtain ⟨loaded, load, read⟩ := TypeTable.view_load_store object (value ▸ stored)
  have load' : r.heap.load address (config.types.width type) = .ok loaded := heap' ▸ load
  have returned := returns_readPlace_ok finds' object load'
  rw [← expression_eq_readPlace placed, read, ← value] at returned
  exact ⟨_, levels + 1, returns_eval_ok found returned⟩

/-- After an assignment has been carried out, its value is recorded. -/
theorem assign_of_evaluates {a target e : ExprId} {type : TypeId} {s' : State}
    (assignment : config.program.expr? a = some ⟨.binary .assign target e, type⟩)
    (evaluated : config.Evaluates a s (.ok v) s') :
    ∃ levels r, (config.assign (CellC.eval config levels) target e).Returns s (.ok v) r ∧
      s' = r.record a v := by
  obtain ⟨_, returned⟩ := evaluated
  obtain ⟨levels, expr, r, -, found, assigned, rfl⟩ := rule_of_returns_eval returned
  cases assignment.symm.trans found
  exact ⟨levels, r, assigned, rfl⟩

end Config

/-- The parts that say where the target of an assignment is are calm. -/
def Program.PartsCalm (program : Program) (target : ExprId) : Prop :=
  ∀ expr, program.expr? (program.unparen target) = some expr →
    ∀ part ∈ expr.form.parts, program.Calm part

/-- If an assignment yields a value, then it is what the type of the target makes of the value of
the expression on the right, which is evaluated first. Then the place of the target is found, and
the value is stored there, which changes nothing but what is at that place. Unless the target is an
array, it evaluates to the value that was assigned, provided that finding its place takes no call,
no assignment and no load. -/
theorem assignment_round_trip {config : Config} (built : config.program.Built)
    {a target e : ExprId} {type : TypeId} {v : Value} {s s' : State}
    (assignment : config.program.expr? a = some ⟨.binary .assign target e, type⟩)
    (assigned : config.Evaluates a s (.ok v) s') :
    ∃ w t place u, config.Evaluates e s (.ok w) t ∧
      v = config.types.view (config.program.exprType target) w.cell ∧
      config.FindsTarget target t place u ∧ config.StoresOnly place v u s' ∧
      (config.types.isArray (config.program.exprType target) = false →
        config.program.PartsCalm target → ∃ t', config.Evaluates target s' (.ok v) t') := by
  obtain ⟨levels, r, returned, rfl⟩ := Config.assign_of_evaluates assignment assigned
  obtain ⟨w, t, ⟨form, type'⟩, evaluated, found, value, stored⟩ := Config.returns_assign returned
  obtain rfl : type' = config.program.exprType target := by
    rw [← built.typesFit.exprType_unparen, Program.exprType_of_expr? found]
  obtain ⟨var, u, rfl, bound, rfl⟩ | ⟨place, address, u, heap, placed, finds, stored, rfl⟩ :=
    stored
  · obtain ⟨stores, seen⟩ := Config.storesOnly_assignVar bound
    refine ⟨w, t, .variable var, t, ⟨levels, evaluated⟩, value, .variable found,
      (stores.record _ v).record a v, fun _ _ => ?_⟩
    refine Config.evaluates_of_unparen (Config.evaluates_ident found ?_)
    rw [Config.visibleValue?_record, Config.visibleValue?_record, seen]
  · refine ⟨w, t, .object address _, u, ⟨levels, evaluated⟩, value,
      .object ⟨_, levels, place, found, placed, finds⟩,
      ((Config.storesOnly_store stored).record _ v).record a v, fun object calm => ?_⟩
    obtain ⟨t', again⟩ := Config.evaluates_stored found placed (calm _ found) object finds value
      stored
    exact Config.evaluates_of_unparen again

/-- The steps that build a program with the file-scope variable `c`, a character, and the parameter
`p`, a pointer to characters, and the expressions `(c) = 300` and `(*(p + (1))) = 300`. -/
def narrowStoreSteps : List Construction :=
  [.type (.pointer .char), .global "c" .char none, .function "main" .int, .param ⟨0⟩ "p" ⟨3⟩,
    .expr (.ident ⟨0⟩), .expr (.paren ⟨0⟩), .expr (.intLit 300), .expr (.binary .assign ⟨1⟩ ⟨2⟩),
    .expr (.ident ⟨1⟩), .expr (.intLit 1), .expr (.paren ⟨5⟩), .expr (.binary .add ⟨4⟩ ⟨6⟩),
    .expr (.unary .deref ⟨7⟩), .expr (.paren ⟨8⟩), .expr (.binary .assign ⟨9⟩ ⟨2⟩)]

/-- The program with these expressions. -/
def narrowStore : Config where
  program := {
    names := ⟨⟨#["", "c", "main", "p"]⟩⟩
    types := ⟨⟨#[.int, .char, .void, .pointer .char]⟩⟩
    vars := #[⟨⟨1⟩, .char, none⟩, ⟨⟨3⟩, ⟨3⟩, none⟩]
    exprs := #[⟨.ident ⟨0⟩, .char⟩, ⟨.paren ⟨0⟩, .char⟩, ⟨.intLit 300, .int⟩,
      ⟨.binary .assign ⟨1⟩ ⟨2⟩, .char⟩, ⟨.ident ⟨1⟩, ⟨3⟩⟩, ⟨.intLit 1, .int⟩, ⟨.paren ⟨5⟩, .int⟩,
      ⟨.binary .add ⟨4⟩ ⟨6⟩, ⟨3⟩⟩, ⟨.unary .deref ⟨7⟩, .char⟩, ⟨.paren ⟨8⟩, .char⟩,
      ⟨.binary .assign ⟨9⟩ ⟨2⟩, .char⟩]
    funcs := #[⟨⟨2⟩, [⟨1⟩], .int, none⟩]
    topLevel := #[.variable ⟨0⟩, .function ⟨0⟩] }
  setup := { globals := [⟨0⟩], entry := ⟨0⟩ }

/-- A state in an activation that binds the parameter to the address of three bytes. -/
def narrowStoreState : State where
  stack := { calls := [({} : Frame).bind ⟨1⟩ (.pointer ⟨0x10000000⟩)] }
  heap := { blocks := [⟨⟨0x10000000⟩, .explicit, #[1, 2, 3]⟩] }

/-- The variable is bound at file scope, where it was not bound before. The pointer leads to the
second of three bytes, and the third one stays as it is. Both targets evaluate to the character that
is left of the number. -/
theorem assignment_round_trip_narrowStore :
    (Program.ofConstructions narrowStoreSteps).2 = narrowStore.program ∧
    (∃ s' t', narrowStore.Evaluates ⟨3⟩ narrowStoreState (.ok (.char 44)) s' ∧
      s'.stack.valueIn? 1 ⟨0⟩ = some (.char 44) ∧
      narrowStore.Evaluates ⟨1⟩ s' (.ok (.char 44)) t') ∧
    ∃ s' t', narrowStore.Evaluates ⟨10⟩ narrowStoreState (.ok (.char 44)) s' ∧
      s'.heap.load ⟨0x10000002⟩ 1 = .ok 3 ∧
      narrowStore.Evaluates ⟨9⟩ s' (.ok (.char 44)) t' := by
  have steps : (Program.ofConstructions narrowStoreSteps).2 = narrowStore.program := by
    decide +kernel
  have fit : Program.StepsFit {} narrowStoreSteps := by decide +kernel
  have built : narrowStore.program.Built := steps ▸ Program.built_ofConstructions fit
  have bound : ∃ s', narrowStore.Evaluates ⟨3⟩ narrowStoreState (.ok (.char 44)) s' ∧
      s'.stack.valueIn? 1 ⟨0⟩ = some (.char 44) := ⟨_, ⟨3, rfl⟩, rfl⟩
  have stored : ∃ s', narrowStore.Evaluates ⟨10⟩ narrowStoreState (.ok (.char 44)) s' ∧
      s'.heap.load ⟨0x10000002⟩ 1 = .ok 3 := ⟨_, ⟨6, rfl⟩, rfl⟩
  have pointer : narrowStore.program.Calm ⟨4⟩ := .intro rfl trivial (by rintro _ ⟨⟩)
  have one : narrowStore.program.Calm ⟨5⟩ := .intro rfl trivial (by rintro _ ⟨⟩)
  have wrapped : narrowStore.program.Calm ⟨6⟩ :=
    .intro rfl trivial (List.forall_mem_singleton.mpr one)
  have sum : narrowStore.program.Calm ⟨7⟩ :=
    .intro rfl rfl (List.forall_mem_cons.mpr ⟨pointer, List.forall_mem_singleton.mpr wrapped⟩)
  obtain ⟨s', assigned, kept⟩ := bound
  obtain ⟨_, _, _, _, -, -, -, -, again⟩ := assignment_round_trip built rfl assigned
  obtain ⟨t', evaluated⟩ := again rfl (by rintro _ ⟨⟩ _ ⟨⟩)
  obtain ⟨r', assigned', kept'⟩ := stored
  obtain ⟨_, _, _, _, -, -, -, -, again'⟩ := assignment_round_trip built rfl assigned'
  obtain ⟨u', evaluated'⟩ := again' rfl (by
    rintro _ ⟨⟩ _ member
    obtain rfl := List.mem_singleton.mp member
    exact sum)
  exact ⟨steps, ⟨s', t', assigned, kept, evaluated⟩, r', u', assigned', kept', evaluated'⟩

end CellC
