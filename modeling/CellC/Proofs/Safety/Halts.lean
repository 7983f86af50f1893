import CellC.Proofs.Safety.Lookups

/-!
# Where requests halt

A request that ends with neither a result nor a fault has come to something that is missing in the
program, or it has run out of levels. Either way there is a single part of it that halted by itself:
an operation that looked up what is missing, or an evaluation, execution or iteration without a
level left. Everything around it halted for no other reason.

## Main definitions

* `Action.Avoids`: actions that never halt in a given way
* `Job.HaltsItself`: a job looks up what is missing, or has no level left

## Main results

* `Config.avoids_perform`: an operation halts only if something is missing
* `Config.source_of_halted`: a request that halts contains the job that halted by itself
-/

namespace CellC

variable {α β : Type} {halt : Halt}

/-! ### Actions that never halt -/

namespace Action

/-- The action never ends with `halt`. -/
def Avoids (halt : Halt) (action : Action α) : Prop := ∀ s t, action.run s ≠ .error halt t

namespace Avoids

theorem pure (a : α) : Avoids halt (pure a) := by
  intro s t halted
  rw [EStateM.run_pure] at halted
  cases halted

theorem bind {action : Action α} {next : α → Action β} (first : Avoids halt action)
    (rest : ∀ a, Avoids halt (next a)) : Avoids halt (action >>= next) := by
  intro s t halted
  rw [EStateM.run_bind] at halted
  cases ran : action.run s with
  | ok a u =>
    rw [ran] at halted
    exact rest a u t halted
  | error other u =>
    rw [ran] at halted
    cases halted
    exact first s t ran

theorem get : Avoids halt (get : Action State) := by
  intro s t halted
  rw [EStateM.run_get] at halted
  cases halted

theorem modify (f : State → State) : Avoids halt (modify f : Action Unit) := by
  intro s t halted
  rw [EStateM.run_modify] at halted
  cases halted

theorem ofOption {node : Option α} (there : halt = .dangling → node.isSome = true) :
    Avoids halt (ofOption node) := by
  cases node with
  | some a => exact .pure a
  | none =>
    intro s t halted
    cases halted
    cases there rfl

section Faults

variable (grave : ∀ fault, halt ≠ .fault fault)
include grave

theorem fail (fault : Fault) : Avoids halt (fail fault : Action α) := by
  intro s t halted
  rw [run_fail] at halted
  cases halted
  exact grave fault rfl

theorem ofExcept (outcome : Except Fault α) : Avoids halt (ofExcept outcome) := by
  cases outcome with
  | ok a => exact .pure a
  | error fault => exact .fail grave fault

theorem allocate (size : Cell) (purpose : Purpose) : Avoids halt (allocate size purpose) :=
  .bind .get fun _ => .bind (.ofExcept grave _) fun _ =>
    .bind (.modify _) fun _ => .bind (.modify _) fun _ => .pure _

end Faults

theorem release (address : Address) : Avoids halt (release address) := by
  refine .bind .get fun s => ?_
  split
  · exact .bind (.modify _) fun _ => .bind (.modify _) fun _ => .pure _
  · exact .bind (.modify _) fun _ => .pure _

theorem releaseAll (bases : List Address) : Avoids halt (releaseAll bases) := by
  induction bases with
  | nil => exact .pure ()
  | cons base bases ih =>
    exact .bind (.bind (.release base) fun _ => .pure _) fun _ => ih

theorem popFrame (grave : ∀ fault, halt ≠ .fault fault) : Avoids halt popFrame := by
  refine .bind .get fun s => ?_
  split
  · exact .fail grave _
  · exact .bind (.modify _) fun _ => .bind (.releaseAll _) fun _ => .bind .get fun _ =>
      .bind (.modify _) fun _ => .pure _

theorem readInteger : Avoids halt readInteger := by
  have reads : Avoids halt (modifyGet fun state : State =>
      (state.input.read.1, { state with input := state.input.read.2 }) : Action Reading) := by
    intro s t halted
    rw [EStateM.run_modifyGet] at halted
    cases halted
  refine .bind reads fun reading => ?_
  cases reading with
  | value n => exact .pure _
  | malformed word error => exact .bind (.modify _) fun _ => .pure _
  | unavailable => exact .pure _

end Avoids

end Action

/-! ### Scripts that halt -/

/-- A script halts in one of the requests that it comes to. -/
theorem Script.reaches_of_halted {carryOut : (request : Request) → Action request.Answer}
    {script : Script α} {s t : State}
    (halted : (script.run carryOut).run s = .error halt t) :
    ∃ request u, script.Reaches carryOut s request u ∧
      (carryOut request).run u = .error halt t := by
  induction script generalizing s with
  | done a =>
    have same : (pure a : Action α).run s = .error halt t := halted
    rw [EStateM.run_pure] at same
    cases same
  | ask request next ih =>
    have bound : (carryOut request >>= fun answer => (next answer).run carryOut).run s =
      .error halt t := halted
    rw [EStateM.run_bind] at bound
    cases ran : (carryOut request).run s with
    | ok answer u =>
      rw [ran] at bound
      obtain ⟨asked, v, reaches, halted⟩ := ih answer bound
      exact ⟨asked, v, .later ran reaches, halted⟩
    | error other u =>
      rw [ran] at bound
      cases bound
      exact ⟨request, s, .here, ran⟩

/-! ### Requests that halt -/

/-- The job halts for no reason but its own: it looks up what is missing, or it is an evaluation, an
execution or an iteration and has no level left. -/
def Job.HaltsItself (config : Config) (halt : Halt) (job : Job) : Prop :=
  (halt = .dangling ∧ ¬job.request.Fits config.program) ∨
    (halt = .exhausted ∧ job.levels = 0 ∧ job.request.rank = 1)

namespace Config

open CellC.Action (Avoids)

variable {config : Config} {levels : Nat} {s t : State} (grave : ∀ fault, halt ≠ .fault fault)

include grave in
/-- An operation halts only if it refers to something that is not there. -/
theorem avoids_perform {operation : Operation}
    (there : halt = .dangling → Request.Fits config.program (.operate operation)) :
    Avoids halt (config.perform operation) := by
  cases operation with
  | expr id | stmt id | var id | func id =>
    refine .ofOption fun dangling => Option.isSome_iff_exists.mpr
      ⟨_, Array.getElem?_eq_getElem ?_⟩
    exact there dangling _ List.mem_cons_self
  | fail fault => exact .fail grave fault
  | compute outcome => exact .ofExcept grave outcome
  | note | bind | record | returning | println | setGlobalsReady => exact .modify _
  | varValue var =>
    refine .bind .get fun s => ?_
    split
    · exact .pure _
    · exact .fail grave _
  | assignVar var value =>
    refine .bind .get fun s => ?_
    split <;> exact .modify _
  | load address type =>
    unfold perform loadAt
    dsimp only
    split
    · exact .pure _
    · exact .bind (.bind .get fun _ => .ofExcept grave _) fun _ => .pure _
  | store address type value =>
    exact .bind .get fun _ => .bind (.ofExcept grave _) fun _ => .modify _
  | newArray size => exact .bind (.allocate grave _ _) fun _ => .bind (.modify _) fun _ => .pure _
  | allocate size => exact .allocate grave _ _
  | release address => exact .release _
  | read => exact .readInteger
  | checkDepth =>
    unfold perform checkDepth
    dsimp only
    split
    · refine .bind .get fun s => ?_
      split
      · exact .fail grave _
      · exact .pure _
    · exact .pure _
  | globalsReady => exact .bind .get fun _ => .pure _

include grave in
/-- An activation halts only if its body does. -/
theorem body_of_halted_activation {params : List VarId} {values : List Value} {body : StmtId}
    (halted : (config.activation (CellC.exec config levels) params values body).run s =
      .error halt t) :
    ∃ u, ((config.bodyScript params values body).run (config.carryOut levels)).run s.entered =
      .error halt u := by
  rw [run_activation, boundBody_eq_run] at halted
  split at halted
  · exact absurd halted (Avoids.popFrame grave _ _)
  · next fault u failed =>
    split at halted
    · cases halted
      exact absurd rfl (grave fault)
    · next other v popped =>
      cases halted
      exact absurd popped (Avoids.popFrame grave _ _)
  · next u dangled =>
    cases halted
    exact ⟨t, dangled⟩
  · next u ranOut =>
    cases halted
    exact ⟨t, ranOut⟩

/-- A script that halts asks for something that halts, and whatever halts there by itself is part of
the job whose script it is. -/
theorem source_of_script {whole : Job} {script : Script α}
    (part : ∀ asked u, script.Reaches (config.carryOut levels) s asked u →
      config.Part whole ⟨levels, asked, u⟩)
    (source : ∀ asked u, script.Reaches (config.carryOut levels) s asked u →
      (config.carryOut levels asked).run u = .error halt t →
        ∃ job, config.Contains ⟨levels, asked, u⟩ job ∧ job.HaltsItself config halt)
    (halted : (script.run (config.carryOut levels)).run s = .error halt t) :
    ∃ job, config.Contains whole job ∧ job.HaltsItself config halt := by
  obtain ⟨asked, u, reaches, halted⟩ := Script.reaches_of_halted halted
  obtain ⟨job, contains, itself⟩ := source asked u reaches halted
  exact ⟨job, .head (part asked u reaches) contains, itself⟩

include grave in
/-- A request that halts without a fault contains a job that halts by itself. -/
theorem source_of_halted {request : Request}
    (halted : (config.carryOut levels request).run s = .error halt t) :
    ∃ job, config.Contains ⟨levels, request, s⟩ job ∧ job.HaltsItself config halt := by
  induction levels, request using Request.induction generalizing s t with
  | operate levels operation =>
    refine ⟨_, .refl, .inl ?_⟩
    by_contra sound
    refine avoids_perform grave (fun dangling => ?_) s t halted
    by_contra missing
    exact sound ⟨dangling, missing⟩
  | exhausted request tree =>
    refine ⟨_, .refl, .inr ⟨?_, rfl, tree⟩⟩
    cases request with
    | evaluate | execute | iterate => cases halted; rfl
    | operate | invoke | run => cases tree
  | evaluate levels id ih =>
    have ran : (CellC.eval config (levels + 1) id).run s = .error halt t := halted
    rw [eval_eq_run] at ran
    exact source_of_script (fun _ _ => .evaluate) (fun asked _ _ => ih asked) ran
  | execute levels id ih =>
    have ran : (CellC.exec config (levels + 1) id).run s = .error halt t := halted
    rw [exec_eq_run] at ran
    exact source_of_script (fun _ _ => .execute) (fun asked _ _ => ih asked) ran
  | iterate levels cond body step ih =>
    have ran : (CellC.loop config (levels + 1) cond body step).run s = .error halt t := halted
    rw [loop_eq_run] at ran
    exact source_of_script (fun _ _ => .iterate) (fun asked _ _ => ih asked) ran
  | run levels ih =>
    have ran : (config.run levels).run s = .error halt t := halted
    rw [run_eq_run] at ran
    exact source_of_script (fun _ _ => .run)
      (fun asked _ reaches => ih asked (config.asks_runScript.of_reaches reaches)) ran
  | invoke levels callee values type ih =>
    have ran : (config.functionCall (CellC.exec config levels) callee values type).run s =
      .error halt t := halted
    rw [functionCall_eq_run, EStateM.run_bind] at ran
    cases admission : ((config.admissionScript callee values).run (config.carryOut levels)).run s
      with
    | error other u =>
      rw [admission] at ran
      cases ran
      have rank := config.asks_admissionScript callee values
      exact source_of_script (fun _ _ => .admission)
        (fun asked _ reaches => ih asked (rank.of_reaches reaches ▸ Nat.zero_le 1)) admission
    | ok admitted u =>
      obtain ⟨params, body⟩ := admitted
      rw [admission] at ran
      dsimp only at ran
      rw [EStateM.run_bind] at ran
      cases activated : (config.activation (CellC.exec config levels) params values body).run u with
      | ok ret v =>
        rw [activated] at ran
        cases ran
      | error other v =>
        rw [activated] at ran
        cases ran
        obtain ⟨w, bodyHalted⟩ := body_of_halted_activation grave activated
        have low := config.asks_bodyScript params values body
        exact source_of_script (fun _ _ => .body admission)
          (fun asked _ reaches => ih asked (low.of_reaches reaches)) bodyHalted

end Config

end CellC
