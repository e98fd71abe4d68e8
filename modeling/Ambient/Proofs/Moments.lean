import Ambient.Proofs.Steps

/-!
# Moments of a run

A moment is where an act takes place together with the state it goes on from.  Acts that
keep what is in scope lead from a moment where a thread shows a scene to others where it
shows the same one; the start of a call leads to one where it shows the scene inside.
So a step shows one scene wherever it has neither a handle nor a call open.
-/

namespace Ambient

/-- Where a body inside several snapshots takes place, the first of them outermost. -/
def Snapshot.insideAll {Client : Type} :
    List Snapshot → Context × Process Client → Context × Process Client
  | [], start => start
  | snapshot :: rest, start => insideAll rest (snapshot.inside start.1 start.2)

namespace Snapshot

variable {Client : Type}

/-- The start of a call moves the thread and nothing else. -/
theorem moved_inside (snapshot : Snapshot) (context : Context) (process : Process Client) :
    Process.Moved context.thread process (snapshot.inside context process).2 []
      ((snapshot.inside context process).2.thread context.thread) := by
  by_cases empty : snapshot.chain = []
  · rw [inside_of_empty empty]
    exact .refl _ process
  · have enter := inside_moved empty context process
    rwa [enter.own]

/-- The start of a call makes the thread show the scene inside. -/
theorem shows_inside (snapshot : Snapshot) {scene : Scene} {context : Context}
    {process : Process Client} (shows : (process.thread context.thread).Shows scene) :
    ((snapshot.inside context process).2.thread context.thread).Shows
      (scene.inside snapshot) := by
  by_cases empty : snapshot.chain = []
  · have same : scene.inside snapshot = scene := by simp [Scene.inside, isEmpty, empty]
    rw [inside_of_empty empty, same]
    exact shows
  · have occupied : snapshot.isEmpty = false := by simpa [isEmpty] using empty
    rw [(inside_moved empty context process).own]
    exact snapshot.shows_entered occupied shows

end Snapshot

/-- Inside a snapshot its types have its captors, all others have what is in scope around
it, and it has put its chain in the place of the thread's own. -/
theorem Thread.Shows.inside {thread : Thread} {scene : Scene} {snapshot : Snapshot}
    (shows : thread.Shows (scene.inside snapshot)) :
    (∀ type ∈ snapshot.types, thread.current type = Chain.captor? type snapshot.chain) ∧
      (∀ type, type ∉ snapshot.types → thread.current type = scene.environment type) ∧
      (snapshot.isEmpty = false → thread.chain = snapshot.chain) := by
  cases empty : snapshot.isEmpty with
  | true =>
      have none : snapshot.types = [] := by simpa [Snapshot.types, Snapshot.isEmpty] using empty
      have same : scene.inside snapshot = scene := by simp [Scene.inside, empty]
      rw [same] at shows
      exact ⟨by simp [none], fun type _ => shows.current type, by rintro ⟨⟩⟩
  | false =>
      have current (type : CaptorType) := (shows.current type).trans
        (Snapshot.environment_inside empty scene type)
      refine ⟨fun type present => ?_, fun type absent => ?_, fun _ => ?_⟩
      · rw [current, if_pos present]
      · rw [current, if_neg absent]
      · simpa [Scene.inside, empty] using shows.chain

namespace Script

variable {foreign : String → Bool}

/-- Where an act takes place, and from which state it goes on. -/
abbrev Moment :=
  Context × Process Session

/-- At a moment on a thread it shows a scene, all that can be run is tidy, and these misuses
have been recorded. -/
structure Moment.Stands (foreign : String → Bool) (id : ThreadId) (misuses : List Misuse)
    (scene : Scene) (now : Moment) : Prop where
  thread : now.1.thread = id
  tidy : now.2.Tidy foreign
  hosts : now.2.Hosts now.1.thread
  warnings : now.2.warnings = misuses
  shows : (now.2.thread now.1.thread).Shows scene

namespace Moment.Stands

variable {id : ThreadId} {misuses : List Misuse} {scene : Scene} {now : Moment}

/-- Any moment at which all is tidy, with what its thread shows. -/
theorem here (now : Moment) (tidy : now.2.Tidy foreign) (hosts : now.2.Hosts now.1.thread) :
    Stands foreign now.1.thread now.2.warnings
      ((now.2.thread now.1.thread).view now.1.thread) now :=
  ⟨rfl, tidy, hosts, rfl, Thread.shows_view hosts.live now.1.thread⟩

/-- An act that keeps what is in scope leads to a moment like the one before. -/
theorem keeps {α : Type} {act : Run α} {good : α → Prop}
    (stands : Stands foreign id misuses scene now) (keeps : Keeps foreign act good) :
    Stands foreign id misuses scene (now.1, (act now.1 now.2).2) :=
  have restored := (keeps now.1 now.2 stands.tidy stands.hosts).restored
  { thread := stands.thread
    tidy := restored.tidy
    hosts := restored.hosts stands.hosts stands.hosts.live
    warnings := restored.warnings.trans stands.warnings
    shows := restored.own.shows stands.shows }

theorem inside (stands : Stands foreign id misuses scene now) (snapshot : Snapshot) :
    Stands foreign id misuses (scene.inside snapshot) (snapshot.inside now.1 now.2) := by
  have here : (snapshot.inside now.1 now.2).1.thread = now.1.thread :=
    snapshot.inside_thread now.1 now.2
  have enter := snapshot.moved_inside now.1 now.2
  have shows := snapshot.shows_inside stands.shows
  refine ⟨?_, stands.tidy.moved stands.hosts enter shows.live, ?_, ?_, ?_⟩
  · exact here.trans stands.thread
  · rw [here]
    exact stands.hosts.moved enter shows.live
  · rw [Process.warnings_moved enter, stands.warnings]
  · rw [here]
    exact shows

theorem insideAll (stands : Stands foreign id misuses scene now) (layers : List Snapshot) :
    Stands foreign id misuses (layers.foldl Scene.inside scene)
      (Snapshot.insideAll layers now) := by
  induction layers generalizing scene now with
  | nil => exact stands
  | cons snapshot rest ih => exact ih (stands.inside snapshot)

end Moment.Stands

namespace Keeps

variable {α : Type} {good : α → Prop} {body : Run α} {id : ThreadId} {misuses : List Misuse}
  {scene : Scene} {now : Moment}

/-- A call of an act that keeps what is in scope ends as the act does inside, with the
session that the act leaves. -/
theorem run_ends (keeps : Keeps foreign body good) (snapshot : Snapshot)
    (stands : Moment.Stands foreign id misuses scene now) :
    let start := snapshot.inside now.1 now.2
    (snapshot.run body now.1 now.2).1 = (body start.1 start.2).1 ∧
      (snapshot.run body now.1 now.2).2.client = (body start.1 start.2).2.client := by
  intro start
  by_cases empty : snapshot.chain = []
  · simp only [start, Snapshot.run_of_empty empty, Snapshot.inside_of_empty empty]
    trivial
  have inside := stands.inside snapshot
  have here : start.1.thread = now.1.thread := snapshot.inside_thread now.1 now.2
  have alike := (keeps start.1 start.2 inside.tidy inside.hosts).restored.own
  rw [here, (snapshot.inside_moved empty now.1 now.2).own] at alike
  have occupied : snapshot.isEmpty = false := by simpa [Snapshot.isEmpty] using empty
  have silent : snapshot.faults (now.2.thread now.1.thread)
      ((snapshot.leftBy body now.1 now.2).thread now.1.thread) = [] :=
    (Snapshot.ends occupied stands.hosts.live alike).1
  refine ⟨(Snapshot.run_outcome empty body now.1 now.2).trans ?_,
    (Snapshot.run_moved empty body now.1 now.2).client⟩
  -- Nothing is found out of order, so the end of the call does not raise anything.
  rw [silent]
  cases (body start.1 start.2).1 <;> rfl

theorem runAll_ends (keeps : Keeps foreign body good) (layers : List Snapshot)
    (stands : Moment.Stands foreign id misuses scene now) :
    let start := Snapshot.insideAll layers now
    (Snapshot.runAll layers body now.1 now.2).1 = (body start.1 start.2).1 ∧
      (Snapshot.runAll layers body now.1 now.2).2.client =
        (body start.1 start.2).2.client := by
  induction layers generalizing scene now with
  | nil => exact ⟨rfl, rfl⟩
  | cons snapshot rest ih =>
      obtain ⟨outcome, client⟩ := (Keeps.insideAll rest keeps).run_ends snapshot stands
      obtain ⟨inner, within⟩ := ih (stands.inside snapshot)
      exact ⟨outcome.trans inner, client.trans within⟩

end Keeps

/-! ## Places in a step -/

/-- Steps can be run in two parts. -/
theorem Interpreter.steps_append (interpreter : Interpreter) (place : Place) (index : Nat)
    (value : Value) (front rest : List Step) :
    interpreter.steps place index value (front ++ rest) =
      interpreter.steps place index value front >>= fun value =>
        interpreter.steps place (index + front.length) value rest := by
  induction front generalizing index value with
  | nil => rfl
  | cons step front ih =>
      simp only [List.cons_append, steps, bind_assoc, ih, List.length_cons]
      rw [Nat.add_right_comm, Nat.add_assoc]

namespace Step

/-- The body that a step runs where it stands, and how often. -/
def rounds? : Step → Option (Nat × List Step)
  | .sequence body => some (1, body)
  | .attempt body => some (1, body)
  | .loop count body => some (count.toNat, body)
  | _ => none

/-- What a step with such a body does up to a place in it, if it is run at all: it is
counted, runs its body some times, and then the first steps once more. -/
def runUpTo (interpreter : Interpreter) (place : Place) (body : List Step) (rounds : Nat)
    (front : List Step) : Run Value := do
  Run.modify fun session => { session with steps := session.steps + 1 }
  let _ ← run.repeated (interpreter.body place body) rounds .null
  interpreter.steps place 0 .null front

/-- A step, run at one level of nesting more than those inside it, gets to a place in its
body, or in the body of a step of its body. -/
inductive Visits : Nat → Place → Step → Moment → Moment → Prop where
  | body {levels place step begin count rounds front rest value last} :
      rounds? step = some (count, front ++ rest) → rounds < count →
      runUpTo (.ofLevels levels) place (front ++ rest) rounds front begin.1 begin.2 =
        (.value value, last) →
      Visits (levels + 1) place step begin (begin.1, last)
  | nested {levels place step begin count rounds front next rest value last now} :
      rounds? step = some (count, front ++ next :: rest) → rounds < count →
      runUpTo (.ofLevels levels) place (front ++ next :: rest) rounds front begin.1 begin.2 =
        (.value value, last) →
      Visits levels (place.below (toString front.length)) next (begin.1, last) now →
      Visits (levels + 1) place step begin now

theorem tidy_of_rounds {step : Step} {count : Nat} {body : List Step}
    (fine : step.tidy foreign false = true) (same : step.rounds? = some (count, body)) :
    allTidy foreign false body = true := by
  cases step <;> simp only [rounds?, Option.some.injEq, Prod.mk.injEq, reduceCtorEq] at same
  all_goals
    obtain ⟨-, rfl⟩ := same
    exact fine

theorem runUpTo_keeps {interpreter : Interpreter} (tidy : interpreter.Tidy foreign)
    (place : Place) (rounds : Nat) {front rest : List Step}
    (fine : allTidy foreign false (front ++ rest) = true) :
    Keeps foreign (runUpTo interpreter place (front ++ rest) rounds front) Any := by
  refine (Keeps.countSteps fun session => session.steps + 1).bind fun _ _ => ?_
  refine (repeated_keeps (tidy.body place fine) rounds .null).bind fun _ _ => ?_
  rw [allTidy_append, Bool.and_eq_true] at fine
  exact tidy.steps place fine.1 0 .null

theorem Visits.stands {id : ThreadId} {misuses : List Misuse} {scene : Scene} {levels : Nat}
    {place : Place} {step : Step} {begin now : Moment}
    (visits : Visits levels place step begin now) (fine : step.tidy foreign false = true)
    (stands : Moment.Stands foreign id misuses scene begin) :
    Moment.Stands foreign id misuses scene now := by
  induction visits with
  | @body levels place step begin count rounds front rest value last same _ run =>
      have kept := stands.keeps
        (runUpTo_keeps (Interpreter.ofLevels_tidy levels) place rounds (tidy_of_rounds fine same))
      rwa [run] at kept
  | @nested levels place step begin count rounds front next rest value last now same _ run _ ih =>
      have inner := tidy_of_rounds fine same
      have kept := stands.keeps
        (runUpTo_keeps (Interpreter.ofLevels_tidy levels) place rounds inner)
      rw [run] at kept
      rw [allTidy_append, allTidy, Bool.and_eq_true, Bool.and_eq_true] at inner
      exact ih inner.2.1 kept

/-! ## From a place in a step -/

/-- Rounds of a body can be run in two parts. -/
theorem repeated_add (round : Run Value) (first second : Nat) (value : Value) :
    run.repeated round (first + second) value =
      run.repeated round first value >>= run.repeated round second := by
  induction first generalizing value with
  | zero =>
      rw [Nat.zero_add]
      rfl
  | succ first ih =>
      rw [Nat.succ_add]
      simp only [run.repeated, bind_assoc, ih]

/-- What a step goes on with from a place in its body: what is left of this round, and
the rounds after it. -/
def goingOn (interpreter : Interpreter) (place : Place) (body : List Step) (round : Run Value)
    (left : Nat) : Step → Run Value
  | .attempt _ => do
      return Run.settled (← Act.attempt round)
  | _ => do
      let value ← round
      run.repeated (interpreter.body place body) left value

section

variable {interpreter : Interpreter} {place : Place} {front rest : List Step} {rounds : Nat}
  {value : Value} {context : Context} {process last : Process Session}

/-- The round that gets to a place goes on with the steps that are left of it. -/
theorem round_goes_on {before : Run Value}
    (reached : (before >>= fun _ => interpreter.steps place 0 .null front) context process =
      (.value value, last)) :
    (before >>= fun _ => interpreter.body place (front ++ rest)) context process =
      interpreter.steps place front.length value rest context last := by
  rw [Interpreter.body, Interpreter.steps_append, ← bind_assoc, Act.bind_apply, reached,
    Nat.zero_add]

/-- A step that gets to a place in its body is run, within the limits, as it goes on from
there. -/
theorem runLimited_goes_on {step : Step} {count : Nat}
    (same : step.rounds? = some (count, front ++ rest)) (more : rounds < count)
    (reached : runUpTo interpreter place (front ++ rest) rounds front context process =
      (.value value, last))
    (shallow : place.labels.length ≤ maxLabels) (early : process.client.steps < maxSteps) :
    step.runLimited interpreter place context process =
      step.goingOn interpreter place (front ++ rest)
        (interpreter.steps place front.length value rest) (count - rounds - 1) context last := by
  let counted := { process with
    client := { process.client with steps := process.client.steps + 1 } }
  have starts : step.runLimited interpreter place context process =
      step.run interpreter place context counted := by
    have session : (Run.session context process).1 = .value process.client := rfl
    rw [runLimited, if_neg (Nat.not_lt.mpr shallow), Act.bind_of_value session,
      if_neg (Nat.not_le.mpr early)]
    rfl
  have round := @round_goes_on interpreter place front rest value context counted last _ reached
  rw [starts]
  cases step <;> simp only [rounds?, Option.some.injEq, Prod.mk.injEq, reduceCtorEq] at same
  case sequence body =>
    obtain ⟨rfl, rfl⟩ := same
    obtain rfl := Nat.lt_one_iff.mp more
    exact round.trans (congrFun (congrFun (bind_pure _).symm context) last)
  case attempt body =>
    obtain ⟨rfl, rfl⟩ := same
    obtain rfl := Nat.lt_one_iff.mp more
    have tried : Act.attempt (interpreter.body place (front ++ rest)) context counted =
        Act.attempt (interpreter.steps place front.length value rest) context last := by
      rw [Act.attempt, Act.attempt, ← round]
      rfl
    simp only [goingOn, run]
    rw [Act.bind_apply, Act.bind_apply, tried]
  case loop times body =>
    obtain ⟨rfl, rfl⟩ := same
    let left := times.toNat - rounds - 1
    have all : times.toNat = rounds + (left + 1) := by omega
    have parts : run.repeated (interpreter.body place (front ++ rest)) times.toNat .null =
        (run.repeated (interpreter.body place (front ++ rest)) rounds .null >>= fun _ =>
          interpreter.body place (front ++ rest)) >>=
            run.repeated (interpreter.body place (front ++ rest)) left := by
      rw [all, repeated_add, bind_assoc]
      rfl
    simp only [goingOn, run]
    rw [parts, Act.bind_apply, round, Act.bind_apply]

end

end Step

end Script

end Ambient
