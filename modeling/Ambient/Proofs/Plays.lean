import Ambient.Proofs.Reentry

/-!
# Plays

A play is what a thread does, with the handlers that its messages come to.  Between one
message and the next it does whatever it likes, opens and ends scopes in any order, calls
inside snapshots, gives up what it refers to, and what comes next may depend on how that
went.  A handler is a play as well, so it sends messages of its own, to any depth.
-/

namespace Ambient

variable {Client Result α : Type}

def Outcome.map {β : Type} (change : α → β) : Outcome α → Outcome β
  | .value result => .value (change result)
  | .panic raised => .panic raised

namespace Act

/-- Without a captor in scope nothing happens.  Otherwise the handler does all there is,
from where the dispatch started to where it ends, with its captor referred to meanwhile. -/
theorem dispatch_apply (type : CaptorType) (handler : CaptorId → Act Client α)
    (context : Context) (process : Process Client) :
    Act.dispatch type handler context process =
      match (process.thread context.thread).current type with
      | none => (.value none, process)
      | some captor =>
          let (outcome, left) := handler captor
            { context with held := captor :: context.held } process
          (outcome.map some, left) := by
  have read : Act.dispatch type handler context process =
      (match (process.thread context.thread).current type with
      | none => pure none
      | some captor => do return some (← holding [captor] (handler captor)) :
        Act Client (Option α)) context process := rfl
  rw [read]
  cases (process.thread context.thread).current type with
  | none => rfl
  | some captor =>
      simp only [bind_apply, holding, List.singleton_append]
      cases handler captor { context with held := captor :: context.held } process with
      | mk outcome left => cases outcome <;> rfl

/-- What comes after an act comes after its values, if a panic goes on. -/
theorem attempt_bind {β : Type} {next : Outcome α → Act Client β} (act : Act Client α)
    (passes : ∀ panic, next (.panic panic) = raise panic) :
    act.attempt >>= next = act >>= fun value => next (.value value) := by
  funext context process
  simp only [bind_apply, attempt]
  cases act context process with
  | mk outcome left =>
      cases outcome with
      | value value => rfl
      | panic panic => rw [passes]; rfl

theorem attempt_conclude (act : Act Client α) :
    (act.attempt >>= fun outcome => conclude outcome) = act :=
  (attempt_bind act fun _ => rfl).trans (bind_pure act)

/-- A close comes after a body that is over, however it has ended. -/
theorem attempt_ensuring (body : Act Client α) (close : Act Client Unit) :
    (body.attempt >>= fun outcome => (conclude outcome).ensuring close) =
      body.ensuring close := by
  funext context process
  simp only [bind_apply, attempt, ensuring]
  cases body context process with
  | mk outcome left => cases outcome <;> rfl

end Act

/-- What a thread does.  A panic goes no further than the play lets it. -/
inductive Play (Client Result : Type) : Type 1 where
  | done (outcome : Outcome Result)
  /-- Anything but sending a message. -/
  | does {α : Type} (act : Act Client α) (next : Outcome α → Play Client Result)
  | emits (type : CaptorType) (message : String) (handler : CaptorId → Play Client Result)
      (next : Outcome (Option Result) → Play Client Result)
  /-- Some captors are referred to as long as a part of the play lasts. -/
  | holds (captors : List CaptorId) (body : Play Client Result)
      (next : Outcome Result → Play Client Result)

namespace Play

/-- The whole play as one act. -/
def run : Play Client Result → Act Client Result
  | .done outcome => Act.conclude outcome
  | .does act next => do (next (← Act.attempt act)).run
  | .emits type _ handler next => do
      let outcome ← Act.attempt (Act.dispatch type fun captor => (handler captor).run)
      (next outcome).run
  | .holds captors body next => do
      (next (← Act.attempt (Act.holding captors body.run))).run

section

variable {type : CaptorType} {message : String} {handler : CaptorId → Play Client Result}
  {next : Outcome (Option Result) → Play Client Result} {context : Context}
  {process : Process Client}

theorem run_emits_of_none (found : (process.thread context.thread).current type = none) :
    (emits type message handler next).run context process =
      (next (.value none)).run context process := by
  simp only [run, Act.bind_apply, Act.attempt, Act.dispatch_apply, found]

theorem run_emits_of_some {captor : CaptorId}
    (found : (process.thread context.thread).current type = some captor) :
    (emits type message handler next).run context process =
      let result := (handler captor).run { context with held := captor :: context.held } process
      (next (result.1.map some)).run context result.2 := by
  simp only [run, Act.bind_apply, Act.attempt, Act.dispatch_apply, found]

end

/-- A play inside a snapshot. -/
def calling (snapshot : Snapshot) (body : Play Client Result) : Play Client Result :=
  match snapshot.chain with
  | [] => body
  | innermost :: _ =>
      .does (snapshot.enter innermost) fun entered =>
        match entered with
        | .panic panic => .done (.panic panic)
        | .value (scopes, delegation) =>
            .holds (scopes.flatMap Scope.captors) body fun outcome =>
              .does (((Act.conclude outcome).ensuring delegation.finish).ensuring
                (Scope.finishAll scopes)) .done

/-- A play inside a snapshot is a call of the snapshot. -/
theorem run_calling (snapshot : Snapshot) (body : Play Client Result) :
    (body.calling snapshot).run = snapshot.run body.run := by
  unfold calling
  split
  case h_1 empty => rw [Snapshot.run_of_empty empty]
  case h_2 innermost outer reached =>
    rw [Snapshot.run_eq_enter reached, run, Act.attempt_bind _ fun panic => rfl]
    refine congrArg (snapshot.enter innermost >>= ·) (funext fun entered => ?_)
    simp only [run, Act.attempt_conclude, Act.ensuring_assoc]
    exact Act.attempt_ensuring _ _

end Play

end Ambient
