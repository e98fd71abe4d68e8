import Ambient.Proofs.Plays
import Mathlib.Data.List.Count
import Mathlib.Logic.Function.Basic

/-!
# Plays side by side

The threads of a troupe perform their plays side by side, and the turns of the threads
may come in any order.  A thread at a message reads the slot, and if there is a captor it
goes on with the handler; what it was at waits meanwhile, and so do the handlers that
messages of handlers have left.  A thread left alone performs its play as the one act
that the play is.
-/

namespace Ambient

variable {Client Result : Type}

/-- What waits for a part of a play to end. -/
inductive Awaiting (Client Result : Type) : Type 1 where
  /-- The dispatch of a message, which refers to the captor. -/
  | handler (captor : CaptorId) (next : Outcome (Option Result) → Play Client Result)
  | holding (captors : List CaptorId) (next : Outcome Result → Play Client Result)

namespace Awaiting

def captors : Awaiting Client Result → List CaptorId
  | .handler captor _ => [captor]
  | .holding captors _ => captors

/-- What follows once it has ended. -/
def resume (outcome : Outcome Result) : Awaiting Client Result → Play Client Result
  | .handler _ next => next (outcome.map some)
  | .holding _ next => next outcome

/-- The captor that is at work on a message meanwhile. -/
def receiver? : Awaiting Client Result → Option CaptorId
  | .handler captor _ => some captor
  | .holding _ _ => none

end Awaiting

structure Performer (Client Result : Type) where
  play : Play Client Result
  /-- What waits for the play to end, innermost first. -/
  awaiting : List (Awaiting Client Result)

namespace Performer

/-- The captors that the thread refers to meanwhile. -/
def held (performer : Performer Client Result) : List CaptorId :=
  performer.awaiting.flatMap Awaiting.captors

/-- The captors whose handlers are in progress, innermost first. -/
def receivers (performer : Performer Client Result) : List CaptorId :=
  performer.awaiting.filterMap Awaiting.receiver?

end Performer

/-- What becomes known of the handlers. -/
inductive Signal where
  | started (thread : ThreadId) (captor : CaptorId) (message : String)
  | finished (thread : ThreadId) (captor : CaptorId)
deriving DecidableEq, Repr

namespace Signal

/-- The message that a captor has received, and its thread. -/
def receipt? (captor : CaptorId) : Signal → Option (ThreadId × String)
  | .started thread receiver message => if receiver = captor then some (thread, message) else none
  | .finished _ _ => none

/-- Whether a handler of the captor has started on the thread. -/
def starts (id : ThreadId) (captor : CaptorId) : Signal → Bool
  | .started thread receiver _ => thread = id ∧ receiver = captor
  | .finished _ _ => false

end Signal

/-- A message, with what was current on its thread then. -/
structure Emission where
  thread : ThreadId
  type : CaptorType
  message : String
  current : Option CaptorId
deriving DecidableEq, Repr

/-- The message and its thread, if the captor was current there. -/
def Emission.address? (captor : CaptorId) (emission : Emission) : Option (ThreadId × String) :=
  if emission.current = some captor then some (emission.thread, emission.message) else none

structure Stage (Client Result : Type) where
  process : Process Client
  performers : ThreadId → Performer Client Result
  /-- What has become known, in order. -/
  signals : List Signal

namespace Stage

def start (process : Process Client) (plays : ThreadId → Play Client Result) :
    Stage Client Result :=
  ⟨process, fun id => ⟨plays id, []⟩, []⟩

/-- Where a thread is as it takes its turn. -/
def place (stage : Stage Client Result) (build : Build) (id : ThreadId) : Context :=
  ⟨build, id, false, (stage.performers id).held⟩

def perform (stage : Stage Client Result) (id : ThreadId) (performer : Performer Client Result)
    (process : Process Client) (signals : List Signal) : Stage Client Result :=
  ⟨process, Function.update stage.performers id performer, stage.signals ++ signals⟩

/-- A thread takes its turn, unless its play is over. -/
def turn (build : Build) (id : ThreadId) (stage : Stage Client Result) : Stage Client Result :=
  match stage.performers id with
  | ⟨.done _, []⟩ => stage
  | ⟨.done outcome, waiting :: awaiting⟩ =>
      stage.perform id ⟨waiting.resume outcome, awaiting⟩ stage.process
        (waiting.receiver?.toList.map (.finished id))
  | ⟨.does act next, awaiting⟩ =>
      let (outcome, process) := act (stage.place build id) stage.process
      stage.perform id ⟨next outcome, awaiting⟩ process []
  | ⟨.emits type message handler next, awaiting⟩ =>
      match (stage.process.thread id).current type with
      | none => stage.perform id ⟨next (.value none), awaiting⟩ stage.process []
      | some captor =>
          stage.perform id ⟨handler captor, .handler captor next :: awaiting⟩ stage.process
            [.started id captor message]
  | ⟨.holds captors body next, awaiting⟩ =>
      stage.perform id ⟨body, .holding captors next :: awaiting⟩ stage.process []

/-- The threads take their turns in the order given. -/
def turns (build : Build) : List ThreadId → Stage Client Result → Stage Client Result
  | [], stage => stage
  | id :: order, stage => turns build order (stage.turn build id)

/-- The message that a thread is about to send, if any. -/
def emission? (stage : Stage Client Result) (id : ThreadId) : Option Emission :=
  match (stage.performers id).play with
  | .emits type message _ _ => some ⟨id, type, message, (stage.process.thread id).current type⟩
  | _ => none

/-- The messages sent as the threads take their turns, in order. -/
def emissions (build : Build) : List ThreadId → Stage Client Result → List Emission
  | [], _ => []
  | id :: order, stage => (stage.emission? id).toList ++ emissions build order (stage.turn build id)

/-- What a captor has received, in order, and on which threads. -/
def received (stage : Stage Client Result) (captor : CaptorId) : List (ThreadId × String) :=
  stage.signals.filterMap (Signal.receipt? captor)

/-- How many handlers of a captor have started on a thread. -/
def started (stage : Stage Client Result) (id : ThreadId) (captor : CaptorId) : Nat :=
  stage.signals.countP (Signal.starts id captor)

def finished (stage : Stage Client Result) (id : ThreadId) (captor : CaptorId) : Nat :=
  stage.signals.count (.finished id captor)

/-- Whether anything refers to a captor: a thread at work, a slot, or a crosser. -/
def Alive (stage : Stage Client Result) (captor : CaptorId) : Prop :=
  (∃ id, captor ∈ (stage.performers id).held) ∨
    (∃ id type, (stage.process.thread id).current type = some captor) ∨
      captor ∈ stage.process.registry.captors

variable {build : Build} {id : ThreadId} {stage : Stage Client Result} {captor : CaptorId}

/-! ## Messages -/

/-- At a turn a captor receives what is sent at the turn while it is current. -/
theorem received_turn : (stage.turn build id).received captor =
    stage.received captor ++ (stage.emission? id).toList.filterMap (Emission.address? captor) := by
  unfold turn
  split
  case h_1 outcome performer =>
    simp [emission?, performer]
  case h_2 outcome waiting awaiting performer =>
    cases waiting <;>
      simp [emission?, performer, received, perform, Awaiting.receiver?, Signal.receipt?]
  case h_3 act next awaiting performer =>
    simp [emission?, performer, received, perform]
  case h_4 type message handler next awaiting performer =>
    cases found : (stage.process.thread id).current type with
    | none => simp [emission?, performer, received, perform, found, Emission.address?]
    | some other =>
        by_cases same : other = captor <;>
          simp [emission?, performer, received, perform, found, Emission.address?,
            Signal.receipt?, same]
  case h_5 captors body next awaiting performer =>
    simp [emission?, performer, received, perform]

/-- A captor receives the messages sent where it was current, each once and in order. -/
theorem received_turns (order : List ThreadId) : (stage.turns build order).received captor =
    stage.received captor ++
      (stage.emissions build order).filterMap (Emission.address? captor) := by
  induction order generalizing stage with
  | nil => simp [turns, emissions]
  | cons id order ih =>
      rw [turns, ih, received_turn, emissions, List.filterMap_append, List.append_assoc]

/-! ## Handlers in progress -/

/-- What of the handlers has started and not finished is in progress. -/
def Tracks (stage : Stage Client Result) : Prop :=
  ∀ id captor, stage.started id captor =
    stage.finished id captor + (stage.performers id).receivers.count captor

theorem start_tracks (process : Process Client) (plays : ThreadId → Play Client Result) :
    (start process plays).Tracks :=
  fun _ _ => rfl

/-- What becomes known at a turn is about its own thread, and agrees with what waits there. -/
theorem Tracks.perform (tracks : stage.Tracks) {performer : Performer Client Result}
    {process : Process Client} {signals : List Signal}
    (own : ∀ other captor, id ≠ other →
      signals.countP (Signal.starts other captor) = 0 ∧ signals.count (.finished other captor) = 0)
    (balance : ∀ captor, signals.countP (Signal.starts id captor) +
      (stage.performers id).receivers.count captor =
        signals.count (.finished id captor) + performer.receivers.count captor) :
    (stage.perform id performer process signals).Tracks := by
  intro other captor
  have before := tracks other captor
  simp only [started, finished, Stage.perform, List.countP_append, List.count_append] at before ⊢
  by_cases same : other = id
  · subst same
    have changed := balance captor
    rw [Function.update_self]
    omega
  · obtain ⟨starts, finishes⟩ := own other captor (Ne.symm same)
    rw [Function.update_of_ne same, starts, finishes]
    omega

theorem Tracks.turn (tracks : stage.Tracks) : (stage.turn build id).Tracks := by
  unfold Stage.turn
  split
  case h_1 outcome performer => exact tracks
  case h_2 outcome waiting awaiting performer =>
    refine tracks.perform (fun other captor apart => ?_) fun captor => ?_
    · cases waiting <;> simp [Awaiting.receiver?, Signal.starts, apart]
    · cases waiting <;>
        simp [performer, Performer.receivers, Awaiting.receiver?, Signal.starts,
          List.filterMap_cons, List.count_cons, Nat.add_comm]
  case h_3 act next awaiting performer =>
    exact tracks.perform (fun _ _ _ => ⟨rfl, rfl⟩) fun captor => by
      simp [performer, Performer.receivers]
  case h_4 type message handler next awaiting performer =>
    split
    case h_1 =>
      exact tracks.perform (fun _ _ _ => ⟨rfl, rfl⟩) fun captor => by
        simp [performer, Performer.receivers]
    case h_2 receiver found =>
      refine tracks.perform (fun other captor apart => ?_) fun captor => ?_
      · simp [Signal.starts, apart]
      · simp [performer, Performer.receivers, Awaiting.receiver?, Signal.starts, List.count_cons,
          List.countP_cons, Nat.add_comm]
  case h_5 captors body next awaiting performer =>
    exact tracks.perform (fun _ _ _ => ⟨rfl, rfl⟩) fun captor => by
      simp [performer, Performer.receivers, Awaiting.receiver?, List.filterMap_cons]

theorem Tracks.turns (tracks : stage.Tracks) (order : List ThreadId) :
    (stage.turns build order).Tracks := by
  induction order generalizing stage with
  | nil => exact tracks
  | cons id order ih => exact ih tracks.turn

/-- A captor at work on a message is referred to by its thread. -/
theorem mem_held_of_receiver {performer : Performer Client Result}
    (receiver : captor ∈ performer.receivers) : captor ∈ performer.held := by
  obtain ⟨waiting, member, found⟩ := List.mem_filterMap.mp receiver
  refine List.mem_flatMap.mpr ⟨waiting, member, ?_⟩
  cases waiting with
  | handler other next => simpa [Awaiting.receiver?, Awaiting.captors, eq_comm] using found
  | holding captors next => contradiction

/-! ## One thread alone -/

theorem turns_append (front back : List ThreadId) :
    stage.turns build (front ++ back) = (stage.turns build front).turns build back := by
  induction front generalizing stage with
  | nil => rfl
  | cons id front ih => exact ih

variable {awaiting : List (Awaiting Client Result)} {process : Process Client}
  {signals : List Signal}

/-- Where a thread is that waits for some parts of its play. -/
def placed (build : Build) (id : ThreadId) (awaiting : List (Awaiting Client Result)) : Context :=
  ⟨build, id, false, awaiting.flatMap Awaiting.captors⟩

theorem turn_handled (outcome : Outcome Result) (captor : CaptorId)
    (next : Outcome (Option Result) → Play Client Result) :
    (stage.perform id ⟨.done outcome, .handler captor next :: awaiting⟩ process signals).turn build
        id =
      stage.perform id ⟨next (outcome.map some), awaiting⟩ process
        (signals ++ [.finished id captor]) := by
  simp [turn, perform, Awaiting.resume, Awaiting.receiver?]

theorem turn_held (outcome : Outcome Result) (captors : List CaptorId)
    (next : Outcome Result → Play Client Result) :
    (stage.perform id ⟨.done outcome, .holding captors next :: awaiting⟩ process signals).turn build
        id =
      stage.perform id ⟨next outcome, awaiting⟩ process signals := by
  simp [turn, perform, Awaiting.resume, Awaiting.receiver?]

theorem turn_does {α : Type} (act : Act Client α) (next : Outcome α → Play Client Result) :
    (stage.perform id ⟨.does act next, awaiting⟩ process signals).turn build id =
      stage.perform id ⟨next (act (placed build id awaiting) process).1, awaiting⟩
        (act (placed build id awaiting) process).2 signals := by
  simp [turn, perform, place, placed, Performer.held]

section

variable {type : CaptorType} {message : String} {handler : CaptorId → Play Client Result}
  {next : Outcome (Option Result) → Play Client Result}

theorem turn_emits_of_none (found : (process.thread id).current type = none) :
    (stage.perform id ⟨.emits type message handler next, awaiting⟩ process signals).turn build id =
      stage.perform id ⟨next (.value none), awaiting⟩ process signals := by
  simp [turn, perform, found]

theorem turn_emits_of_some (found : (process.thread id).current type = some captor) :
    (stage.perform id ⟨.emits type message handler next, awaiting⟩ process signals).turn build id =
      stage.perform id ⟨handler captor, .handler captor next :: awaiting⟩ process
        (signals ++ [.started id captor message]) := by
  simp [turn, perform, found]

end

theorem turn_holds (captors : List CaptorId) (body : Play Client Result)
    (next : Outcome Result → Play Client Result) :
    (stage.perform id ⟨.holds captors body next, awaiting⟩ process signals).turn build id =
      stage.perform id ⟨body, .holding captors next :: awaiting⟩ process signals := by
  simp [turn, perform]

/-- Some turns of one thread lead from one stage to another. -/
def Leads (build : Build) (id : ThreadId) (stage after : Stage Client Result) : Prop :=
  ∃ count, stage.turns build (List.replicate count id) = after

theorem Leads.refl (stage : Stage Client Result) : Leads build id stage stage :=
  ⟨0, rfl⟩

theorem Leads.trans {middle after : Stage Client Result} (front : Leads build id stage middle)
    (back : Leads build id middle after) : Leads build id stage after := by
  obtain ⟨count, rfl⟩ := front
  obtain ⟨more, rfl⟩ := back
  exact ⟨count + more, by rw [List.replicate_add, turns_append]⟩

theorem Leads.of_turn {middle after : Stage Client Result} (first : stage.turn build id = middle)
    (rest : Leads build id middle after) : Leads build id stage after :=
  .trans ⟨1, first⟩ rest

/-- A thread at a play comes to the end of it, and does what the play does as one act. -/
theorem play_leads (play : Play Client Result) (stage : Stage Client Result)
    (awaiting : List (Awaiting Client Result)) (process : Process Client) (signals : List Signal) :
    let result := play.run (placed build id awaiting) process
    ∃ more, Leads build id (stage.perform id ⟨play, awaiting⟩ process signals)
      (stage.perform id ⟨.done result.1, awaiting⟩ result.2 (signals ++ more)) := by
  induction play generalizing awaiting process signals with
  | done outcome =>
      refine ⟨[], ?_⟩
      rw [List.append_nil]
      cases outcome <;> exact .refl _
  | does act next ih =>
      obtain ⟨more, rest⟩ := ih (act (placed build id awaiting) process).1 awaiting
        (act (placed build id awaiting) process).2 signals
      exact ⟨more, .of_turn (turn_does act next) rest⟩
  | emits type message handler next handles ih =>
      cases found : (process.thread id).current type with
      | none =>
          obtain ⟨more, rest⟩ := ih (.value none) awaiting process signals
          refine ⟨more, .of_turn (turn_emits_of_none found) ?_⟩
          rwa [Play.run_emits_of_none found]
      | some captor =>
          let waiting := .handler captor next :: awaiting
          let result := (handler captor).run (placed build id waiting) process
          obtain ⟨during, handled⟩ := handles captor waiting process
            (signals ++ [.started id captor message])
          obtain ⟨more, rest⟩ := ih (result.1.map some) awaiting result.2
            (signals ++ ([.started id captor message] ++ (during ++ [.finished id captor])))
          refine ⟨[.started id captor message] ++ (during ++ [.finished id captor]) ++ more, ?_⟩
          refine .of_turn (turn_emits_of_some found)
            (handled.trans (.of_turn (turn_handled result.1 captor next) ?_))
          rw [Play.run_emits_of_some found]
          simp only [List.append_assoc] at rest ⊢
          exact rest
  | holds captors body next bodies ih =>
      let waiting := .holding captors next :: awaiting
      let result := body.run (placed build id waiting) process
      obtain ⟨during, lasted⟩ := bodies waiting process signals
      obtain ⟨more, rest⟩ := ih result.1 awaiting result.2 (signals ++ during)
      refine ⟨during ++ more, .of_turn (turn_holds captors body next)
        (lasted.trans (.of_turn (turn_held result.1 captors next) ?_))⟩
      rw [← List.append_assoc]
      exact rest

/-- A dispatch finds no captor and does nothing, or it does what the handler does for the
captor that it finds, from there and with the captor referred to, and nothing else.  So a
play is performed by its thread, and however the turns of the threads mix and whatever
they do to the slots, what a captor receives are the messages sent where it was current,
each once and in order; and until its handlers have finished something refers to it. -/
theorem dispatches_reentrant (Client Result : Type) :
    (∀ (α : Type) (type : CaptorType) (handler : CaptorId → Act Client α) (context : Context)
      (process : Process Client),
      Act.dispatch type handler context process =
        match (process.thread context.thread).current type with
        | none => (.value none, process)
        | some captor =>
            let (outcome, left) := handler captor
              { context with held := captor :: context.held } process
            (outcome.map some, left)) ∧
    (∀ (build : Build) (id : ThreadId) (play : Play Client Result)
      (stage : Stage Client Result) (awaiting : List (Awaiting Client Result))
      (process : Process Client) (signals : List Signal),
      let result := play.run (placed build id awaiting) process
      ∃ more, Leads build id (stage.perform id ⟨play, awaiting⟩ process signals)
        (stage.perform id ⟨.done result.1, awaiting⟩ result.2 (signals ++ more))) ∧
    ∀ (build : Build) (process : Process Client) (plays : ThreadId → Play Client Result)
      (order : List ThreadId),
      let stage := (start process plays).turns build order
      (∀ captor, stage.received captor =
        ((start process plays).emissions build order).filterMap (Emission.address? captor)) ∧
      (∀ id captor, stage.started id captor =
        stage.finished id captor + (stage.performers id).receivers.count captor) ∧
      ∀ id captor, stage.finished id captor < stage.started id captor →
        captor ∈ (stage.place build id).held ∧ stage.Alive captor := by
  refine ⟨fun α type handler context process => Act.dispatch_apply type handler context process,
    fun build id play => play_leads play, fun build process plays order => ?_⟩
  have tracks : ((start process plays).turns build order).Tracks :=
    (start_tracks process plays).turns order
  refine ⟨fun captor => received_turns order, tracks, fun id captor unfinished => ?_⟩
  have receiver : captor ∈ (((start process plays).turns build order).performers id).receivers := by
    rw [tracks id captor] at unfinished
    exact List.count_pos_iff.mp (Nat.lt_add_right_iff_pos.mp unfinished)
  have held := mem_held_of_receiver receiver
  exact ⟨held, .inl ⟨id, held⟩⟩

/-- The handler of the first message calls a snapshot in which another captor is current,
sends a message there, and panics with the handler of that captor. -/
theorem dispatches_reentrant_through_call :
    let log : CaptorType := ⟨"Log"⟩
    let inner : CaptorId → Play Unit Unit := fun _ => .done (.panic (.raised "stop"))
    let outer (taken : Snapshot) : CaptorId → Play Unit Unit := fun _ =>
      .calling taken (.emits log "two" inner fun _ => .done (.panic (.raised "stop")))
    let speak (taken : Snapshot) : Play Unit Unit :=
      .emits log "one" (outer taken) fun _ =>
        .emits log "three" (fun _ => .done (.value ())) fun _ => .done (.value ())
    let main : Play Unit Unit :=
      .does (CrosserScope.start log "a") fun _ =>
        .does Snapshot.capture fun taken =>
          .does (Scope.start .capture log (some "b")) fun _ =>
            match taken with
            | .value taken => speak taken
            | .panic panic => .done (.panic panic)
    let first : Stage Unit Unit := start (.start ()) fun _ => main
    let during := first.turns .release (List.replicate 7 .main)
    let last := first.turns .release (List.replicate 14 .main)
    (last.received "a" = [(.main, "two")] ∧
      last.received "b" = [(.main, "one"), (.main, "three")]) ∧
    ((during.process.thread .main).current log = some "a" ∧ during.Alive "b") := by
  intro log inner outer speak main first during last
  obtain ⟨-, -, run⟩ := dispatches_reentrant Unit Unit
  obtain ⟨received, -, -⟩ := run .release (.start ()) (fun _ => main) (List.replicate 14 .main)
  obtain ⟨-, -, unfinished⟩ := run .release (.start ()) (fun _ => main) (List.replicate 7 .main)
  refine ⟨⟨(received "a").trans ?_, (received "b").trans ?_⟩, ?_, ?_⟩
  · decide +kernel
  · decide +kernel
  · decide +kernel
  · exact (unfinished .main "b" (by decide +kernel)).2

end Stage

end Ambient
