import CellC.Proofs.Related
import CellC.Proofs.Scripts

/-!
# Sessions

A session is a sequence of demands on an interpreter, each of which starts from the state that the
one before left behind. If two configurations meet every single demand alike, then they go through
the same sessions.

## Main definitions

* `Request.IsDemand`: what an interpreter can be asked for
* `Config.Session`: demands in sequence, and how each of them ended

## Main results

* `Config.Session.alike`: two configurations that meet demands alike have the same sessions
* `Config.Session.unique`: a session ends in one state
-/

namespace CellC

open CellC.Action (Related)

/-- What an interpreter can be asked for. -/
def Request.IsDemand : Request → Prop
  | run | evaluate _ | execute _ => True
  | operate _ | iterate _ _ _ | invoke _ _ _ => False

/-- What an interpreter was asked for, within some number of levels, and how that ended. -/
structure Exchange where
  levels : Nat
  request : Request
  result : Except Fault request.Answer

/-- What was asked for, the latest first, each time in the state that the demand before had left
behind. -/
inductive Config.Session (config : Config) (s : State) : List Exchange → State → Prop
  | start : Session config s [] s
  | exchange {past t u} (exchange : Exchange) : Session config s past t →
    exchange.request.IsDemand →
    (config.carryOut exchange.levels exchange.request).Returns t exchange.result u →
    Session config s (exchange :: past) u

namespace Config

variable {config config' : Config}

/-- Demands that are met alike between states related by `S` lead from such states to such states.
-/
theorem Session.alike {S : State → State → Prop}
    (requests : ∀ levels (request : Request), request.IsDemand →
      Related S (fun _ => S) (· = ·) (config.carryOut levels request)
        (config'.carryOut levels request))
    {s s' t : State} (start : S s s') {past : List Exchange} (session : config.Session s past t) :
    ∃ t', config'.Session s' past t' ∧ S t t' := by
  induction session with
  | start => exact ⟨s', .start, start⟩
  | @exchange past t u exchange _ demand returned ih =>
    obtain ⟨t', session', related⟩ := ih
    obtain ⟨levels, request, result⟩ := exchange
    obtain ⟨result', u', returned', ends⟩ :=
      (requests levels request demand).returns related returned
    have same : result' = result ∧ S u u' := by
      cases result <;> cases result' <;> first | exact ends.elim | exact ⟨by rw [ends.1], ends.2⟩
    exact ⟨u', .exchange ⟨levels, request, result⟩ session' demand (same.1 ▸ returned'), same.2⟩

/-- A session ends in one state. -/
theorem Session.unique {s t t' : State} {past : List Exchange} (session : config.Session s past t)
    (session' : config.Session s past t') : t = t' := by
  induction session generalizing t' with
  | start => cases session'; rfl
  | exchange _ _ _ returned ih =>
    cases session' with
    | exchange _ session' _ returned' =>
      cases ih session'
      exact (returned.unique returned').2

theorem demands_of_requests {S : State → State → Prop} {levels : Nat}
    (requests :
      (∀ id, Related S (fun _ => S) (· = ·) (CellC.eval config levels id)
        (CellC.eval config' levels id)) ∧
      (∀ id, Related S (fun _ => S) (· = ·) (CellC.exec config levels id)
        (CellC.exec config' levels id)) ∧
      Related S (fun _ => S) (· = ·) (config.run levels) (config'.run levels))
    {request : Request} (demand : request.IsDemand) :
    Related S (fun _ => S) (· = ·) (config.carryOut levels request)
      (config'.carryOut levels request) := by
  cases request with
  | run => exact requests.2.2
  | evaluate id => exact requests.1 id
  | execute id => exact requests.2.1 id
  | operate | iterate | invoke => exact demand.elim

end Config

end CellC
