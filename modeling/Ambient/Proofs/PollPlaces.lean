import Ambient.Proofs.Moments

/-!
# Where a future goes on

A future that pauses may go on at any other moment and on any other thread, inside its
own layers.  At every place where it has no handle open, the types on its snapshot have
the captors of the snapshot, all others have what the polling thread has, and what is
captured there is the snapshot.  A future that it awaits has its layers on top of these.
Whether it pauses, is over or panics, a poll leaves the slots and the chain of its thread
as it finds them.  From each such place the poll ends as what is left of the future does.
-/

namespace Ambient.Script

variable {foreign : String → Bool}

/-! ## Up to an instruction -/

namespace Future

/-- The future up to some of its instructions. -/
def upTo (future : Future) (front : List Instruction) : Future :=
  { future with outer := { future.outer with rest := front } }

/-- The future with more instructions to come. -/
def andThen (future : Future) (rest : List Instruction) : Future :=
  { future with outer := { future.outer with rest := future.outer.rest ++ rest } }

theorem Tidy.upTo {future : Future} (tidy : future.Tidy foreign) {front : List Instruction}
    (fine : Instruction.tidy foreign 0 front = true) : (future.upTo front).Tidy foreign :=
  List.forall_mem_cons.mpr ⟨⟨tidy.outer.held, fine⟩, (List.forall_mem_cons.mp tidy).2⟩

end Future

/-- Go on with more instructions. -/
def Progress.andThen (interpreter : Interpreter) (place : Place) (layers : List Snapshot)
    (rest : List Instruction) : Progress → Run Progress
  | .pending left => pausing (left.andThen rest)
  | .ready value => follow interpreter place layers 0 [] value rest

/-- Instructions after which no handle is held can be followed on their own first. -/
theorem follow_append (interpreter : Interpreter) (place : Place) (layers : List Snapshot)
    (front rest : List Instruction) {skipped : Nat} {held : List Handle} {value : Value}
    (fine : Instruction.tidy foreign (skipped + held.length) front = true) :
    follow interpreter place layers skipped held value (front ++ rest) =
      follow interpreter place layers skipped held value front >>=
        Progress.andThen interpreter place layers rest := by
  induction front generalizing skipped held value with
  | nil =>
      -- Nothing is held or skipped any more, so the rest starts like a future of its own.
      obtain ⟨rfl, rfl⟩ : skipped = 0 ∧ held = [] := by simpa [Instruction.tidy] using fine
      rfl
  | cons instruction front ih =>
      cases skipped with
      | succ skipped =>
          rw [Nat.succ_add] at fine
          cases instruction with
          | run label step =>
              simp only [Instruction.tidy, Bool.and_eq_true] at fine
              exact ih (by rw [Nat.succ_add]; exact fine.2)
          | pause => simp [Instruction.tidy] at fine
          | await register => simp [Instruction.tidy] at fine
          | hold kind register => exact ih (by rw [Nat.succ_add, Nat.succ_add]; exact fine)
          | unhold => exact ih fine
      | zero =>
          rw [Nat.zero_add] at fine
          cases instruction with
          | run label step =>
              simp only [Instruction.tidy, Bool.and_eq_true] at fine
              simp only [List.cons_append, follow, bind_assoc]
              refine bind_congr fun value => ?_
              exact ih (by rw [Nat.zero_add]; exact fine.2)
          | pause =>
              simp only [Instruction.tidy, Bool.and_eq_true, decide_eq_true_eq] at fine
              obtain rfl := List.length_eq_zero_iff.mp fine.1
              rfl
          | await register =>
              simp only [Instruction.tidy, Bool.and_eq_true, decide_eq_true_eq] at fine
              obtain ⟨⟨-, none⟩, fine⟩ := fine
              obtain rfl := List.length_eq_zero_iff.mp none
              have goes (value : Value) := @ih 0 [] value fine
              simp only [List.cons_append, follow, bind_assoc]
              refine bind_congr fun found => ?_
              cases found with
              | none => exact goes _
              | some future =>
                  simp only [bind_assoc]
                  refine bind_congr fun progress => ?_
                  cases progress with
                  | pending waiting => rfl
                  | ready value => exact goes value
          | hold kind register =>
              have skips (value : Value) := @ih 1 held value (by rw [Nat.add_comm]; exact fine)
              simp only [List.cons_append, follow]
              cases HandleKind.ofName? kind with
              | none => exact skips _
              | some kind =>
                  simp only [bind_assoc]
                  refine bind_congr fun found => ?_
                  cases found with
                  | none => exact skips _
                  | some starting =>
                      simp only [bind_assoc]
                      refine bind_congr fun handle => ?_
                      exact ih (by rw [Nat.zero_add]; exact fine)
          | unhold =>
              cases held with
              | nil => simp [Instruction.tidy] at fine
              | cons handle outer =>
                  simp only [List.cons_append, follow, bind_assoc]
                  refine bind_congr fun _ => ?_
                  exact ih (by rw [Nat.zero_add]; exact fine)

theorem advance_upTo (interpreter : Interpreter) (place : Place) {future : Future}
    {front rest : List Instruction} (script : future.outer.rest = front ++ rest)
    (held : future.outer.held = []) (fine : Instruction.tidy foreign 0 front = true) :
    advance interpreter place future =
      advance interpreter place (future.upTo front) >>=
        Progress.andThen interpreter place future.outer.layers rest := by
  obtain ⟨⟨layers, _, value, _⟩, awaited⟩ := future
  subst script held
  cases awaited with
  | nil => exact follow_append interpreter place layers front rest fine
  | cons inner others =>
      simp only [advance, Future.upTo, bind_assoc]
      refine bind_congr fun progress => ?_
      cases progress with
      | pending waiting => rfl
      | ready value => exact follow_append interpreter place layers front rest fine

/-! ## Places in a future -/

/-- Two runs have one outcome and leave one session. -/
def EndsLike {α : Type} (run other : Outcome α × Process Session) : Prop :=
  run.1 = other.1 ∧ run.2.client = other.2.client

namespace Future

/-- Within the poll of a future from some moment it is followed up to these instructions,
with no handle open. -/
def Gets (foreign : String → Bool) (levels : Nat) (place : Place) (future : Future)
    (begin : Moment) (rest : List Instruction) (now : Moment) : Prop :=
  ∃ front value, future.outer.rest = front ++ rest ∧
    Instruction.tidy foreign 0 front = true ∧
    now.1 = (Snapshot.insideAll future.outer.layers begin).1 ∧
    advance (.ofLevels levels) place (future.upTo front)
        (Snapshot.insideAll future.outer.layers begin).1
        (Snapshot.insideAll future.outer.layers begin).2 =
      (.value (.ready value), now.2)

/-- The poll of a future from some moment gets to a place where no handle is open: between
two instructions, or in the body of one. -/
inductive Stops (foreign : String → Bool) (levels : Nat) (place : Place) (future : Future)
    (begin : Moment) : Moment → Prop where
  | between {rest now} : future.Gets foreign levels place begin rest now →
      Stops foreign levels place future begin now
  | body {label step rest now last} :
      future.Gets foreign levels place begin (.run label step :: rest) now →
      Step.Visits levels (place.within label) step now last →
      Stops foreign levels place future begin last

/-- The poll of a future from some moment gets to the poll of a future from another, inside
some layers: to its own, or to that of one that is awaited. -/
inductive Polls (foreign : String → Bool) (levels : Nat) (place : Place) (future : Future)
    (begin : Moment) : List Snapshot → Nat → Future → Moment → Prop where
  | own : Polls foreign levels place future begin [] levels future begin
  | resumed {layers depth outer inner others now} :
      Polls foreign levels place future begin layers (depth + 1) outer now →
      outer.awaited = inner :: others →
      Polls foreign levels place future begin (layers ++ outer.outer.layers) depth
        ⟨inner, others⟩ (Snapshot.insideAll outer.outer.layers now)
  | awaited {layers depth outer next register rest now last process} :
      Polls foreign levels place future begin layers (depth + 1) outer now →
      outer.Gets foreign (depth + 1) place now (.await register :: rest) last →
      takeAwaited? register last.1 last.2 = (.value (some next), process) →
      Polls foreign levels place future begin (layers ++ outer.outer.layers) depth next
        (last.1, process)

/-- The future may be left like this by polls, each at any level, place and moment. -/
inductive LeftAs (foreign : String → Bool) (future : Future) : Future → Prop where
  | start : LeftAs foreign future future
  | poll {left next levels place context process} : LeftAs foreign future left →
      process.Tidy foreign → process.Hosts context.thread →
      (pollInside (.ofLevels levels) place left context process).1 = .value (.pending next) →
      LeftAs foreign future next

variable {id : ThreadId} {misuses : List Misuse} {scene : Scene} {levels : Nat} {place : Place}
  {future : Future} {begin : Moment}

theorem Gets.stands {rest : List Instruction} {now : Moment}
    (gets : future.Gets foreign levels place begin rest now) (tidy : future.Tidy foreign)
    (stands : Moment.Stands foreign id misuses scene begin) :
    Moment.Stands foreign id misuses (future.outer.layers.foldl Scene.inside scene) now ∧
      Instruction.tidy foreign 0 rest = true := by
  obtain ⟨front, value, script, fine, here, run⟩ := gets
  have kept := (stands.insideAll future.outer.layers).keeps
    (advance_keeps (Interpreter.ofLevels_tidy levels) place (tidy.upTo fine))
  rw [run, ← here] at kept
  exact ⟨kept, Instruction.tidy_rest (script ▸ tidy.outer.rest) fine⟩

/-- A poll ends as what takes place inside its layers. -/
theorem pollInside_ends (tidy : future.Tidy foreign) (place : Place)
    (stands : Moment.Stands foreign id misuses scene begin) :
    let start := Snapshot.insideAll future.outer.layers begin
    EndsLike (pollInside (.ofLevels levels) place future begin.1 begin.2)
      (advance (.ofLevels levels) place future start.1 start.2) :=
  (advance_keeps (Interpreter.ofLevels_tidy levels) place tidy).runAll_ends
    future.outer.layers stands

/-- From there the poll goes on with these instructions, and ends as they do. -/
theorem Gets.goes_on {rest : List Instruction} {now : Moment}
    (gets : future.Gets foreign levels place begin rest now) (tidy : future.Tidy foreign)
    (stands : Moment.Stands foreign id misuses scene begin) :
    ∃ value, EndsLike (pollInside (.ofLevels levels) place future begin.1 begin.2)
      (follow (.ofLevels levels) place future.outer.layers 0 [] value rest now.1 now.2) := by
  obtain ⟨front, value, script, fine, here, run⟩ := gets
  refine ⟨value, ?_⟩
  have ends := @pollInside_ends _ _ _ _ levels _ _ tidy place stands
  dsimp only at ends
  rwa [advance_upTo _ place script tidy.outer.held fine, Act.bind_apply, run, ← here] at ends

theorem Stops.stands {now : Moment} (stops : future.Stops foreign levels place begin now)
    (tidy : future.Tidy foreign) (stands : Moment.Stands foreign id misuses scene begin) :
    Moment.Stands foreign id misuses (future.outer.layers.foldl Scene.inside scene) now := by
  cases stops with
  | between gets => exact (gets.stands tidy stands).1
  | body gets visits =>
      obtain ⟨there, fine⟩ := gets.stands tidy stands
      simp only [Instruction.tidy, Bool.and_eq_true] at fine
      exact visits.stands fine.1 there

theorem Polls.stands {layers : List Snapshot} {depth : Nat} {inner : Future} {now : Moment}
    (polls : future.Polls foreign levels place begin layers depth inner now)
    (tidy : future.Tidy foreign) (stands : Moment.Stands foreign id misuses scene begin) :
    inner.Tidy foreign ∧
      Moment.Stands foreign id misuses (layers.foldl Scene.inside scene) now := by
  induction polls with
  | own => exact ⟨tidy, stands⟩
  | resumed _ waiting ih =>
      obtain ⟨outerTidy, there⟩ := ih
      rw [List.foldl_append]
      refine ⟨?_, there.insideAll _⟩
      have others := (List.forall_mem_cons.mp outerTidy).2
      rwa [waiting] at others
  | awaited _ gets taken ih =>
      obtain ⟨outerTidy, there⟩ := ih
      obtain ⟨here, fine⟩ := gets.stands outerTidy there
      -- A tidy future awaits only what is in registers of its own, which is tidy as well.
      simp only [Instruction.tidy, Bool.and_eq_true, Bool.not_eq_true'] at fine
      have takes := takeAwaited?_keeps fine.1.1
      have kept := here.keeps takes
      have value := (takes _ _ here.tidy here.hosts).value
      rw [taken] at kept value
      rw [List.foldl_append]
      exact ⟨value _ rfl _ rfl, kept⟩

theorem LeftAs.tidy {left : Future} (leaves : future.LeftAs foreign left)
    (fine : future.Tidy foreign) :
    left.Tidy foreign ∧ left.outer.layers = future.outer.layers := by
  induction leaves with
  | start => exact ⟨fine, rfl⟩
  | @poll left next levels place context process _ staged hosts pending ih =>
      have polled := pollInside_keeps (Interpreter.ofLevels_tidy levels) place ih.1
      obtain ⟨tidy, layers⟩ := (polled context process staged hosts).value _ pending
      exact ⟨tidy, layers.trans ih.2⟩

end Future

/-! ## Polls -/

/-- A thread has the slots and the chain of before, and no misuse has been recorded. -/
structure Untouched (id : ThreadId) (process last : Process Session) : Prop where
  current : ∀ type, (last.thread id).current type = (process.thread id).current type
  chain : (last.thread id).chain = (process.thread id).chain
  warnings : last.warnings = process.warnings

theorem Keeps.untouched {α : Type} {act : Run α} {good : α → Prop}
    (keeps : Keeps foreign act good) {context : Context} {process : Process Session}
    (tidy : process.Tidy foreign) (hosts : process.Hosts context.thread) :
    Untouched context.thread process (act context process).2 :=
  have restored := (keeps context process tidy hosts).restored
  ⟨restored.own.current, restored.own.chain, restored.warnings⟩

/-- The answer of a poll, unless it panics. -/
def Progress.answered : Outcome Progress → Outcome Value
  | .value progress => .value progress.answer
  | .panic panic => .panic panic

/-- What a poll by name does inside the layers ends with the answer of the poll, and has
the future left, if there is one, to be put back. -/
theorem polling_ends {interpreter : Interpreter} (tidy : interpreter.Tidy foreign)
    (place : Place) {left : Future} (fine : left.Tidy foreign) {context : Context}
    {process : Process Session} (staged : process.Tidy foreign)
    (hosts : process.Hosts context.thread) :
    let polled := (pollInside interpreter place left context process).1
    let run := Snapshot.runAll left.outer.layers (polling interpreter place left) context process
    run.1 = Progress.answered polled ∧
      ∀ progress, polled = .value progress → run.2.client.suspended = progress.remaining? := by
  intro polled run
  let start := Snapshot.insideAll left.outer.layers (context, process)
  have here : Moment.Stands foreign _ _ _ (context, process) :=
    .here _ staged hosts
  obtain ⟨advanced, -⟩ := (advance_keeps tidy place fine).runAll_ends left.outer.layers here
  obtain ⟨outcome, client⟩ :=
    (polling_keeps tidy place fine).runAll_ends left.outer.layers here
  have reached : polled = (advance interpreter place left start.1 start.2).1 := advanced
  rw [reached, outcome, client, polling, Act.bind_apply]
  cases advance interpreter place left start.1 start.2 with
  | mk found middle =>
      cases found with
      | value progress => exact ⟨rfl, fun _ same => Outcome.value.inj same ▸ rfl⟩
      | panic panic => exact ⟨rfl, nofun⟩

/-- Put back what is left of a future that was polled by its name, or give it up, and end
as the poll did. -/
def FutureHome.settle (home : FutureHome) (name : String) (layers : List Snapshot)
    (left : Option Future) (outcome : Outcome Value) : Run Value := do
  match left with
  | some next => home.putBack name next
  | none => Snapshot.dropAll layers
  Act.conclude outcome

/-- A future that is polled by its name is put back as the poll leaves it. -/
theorem pollOnce_settles {interpreter : Interpreter} (tidy : interpreter.Tidy foreign)
    (place : Place) {name : String} (own : foreign name = false) {context : Context}
    {process : Process Session} (staged : process.Tidy foreign)
    (hosts : process.Hosts context.thread) {home : FutureHome} {left : Future}
    {without : Process Session}
    (taken : FutureHome.take? name context process = (.value (some (home, left)), without)) :
    let idle := { without with client := { without.client with suspended := none } }
    let polled := (pollInside interpreter place left context idle).1
    ∃ next last, pollOnce interpreter place name context process =
        home.settle name left.outer.layers next (Progress.answered polled) context last ∧
      ∀ progress, polled = .value progress → next = progress.remaining? := by
  intro idle polled
  have takes := FutureHome.take?_keeps own context process staged hosts
  rw [taken] at takes
  have hosted := takes.restored.hosts hosts hosts.live
  have idles := (Keeps.unsuspend context without takes.restored.tidy hosted).restored
  have idleTidy : idle.Tidy foreign := idles.tidy
  have idleHosts : idle.Hosts context.thread := idles.hosts hosted hosted.live
  obtain ⟨answered, suspended⟩ :=
    polling_ends tidy place (takes.value _ rfl home left rfl) idleTidy idleHosts
  generalize run : Snapshot.runAll left.outer.layers (polling interpreter place left)
    context idle = found at answered suspended
  obtain ⟨outcome, last⟩ := found
  refine ⟨last.client.suspended,
    { last with client := { last.client with suspended := none } }, ?_, suspended⟩
  have attempted : Act.attempt
      (Snapshot.runAll left.outer.layers (polling interpreter place left)) context idle =
        (.value outcome, last) := by
    rw [Act.attempt, run]
  have idling : Run.modify (fun session => { session with suspended := none }) context without =
      (.value (), idle) := rfl
  unfold polling at attempted
  rw [pollOnce, Act.bind_apply, taken]
  dsimp only
  rw [Act.bind_apply, idling]
  dsimp only
  rw [Act.bind_apply, attempted, ← answered]
  rfl

namespace Future

/-- A future that awaits nothing starts where its first instruction is, inside its layers. -/
theorem gets_start {future : Future} (awaits : future.awaited = [])
    (held : future.outer.held = []) (levels : Nat) (place : Place) (begin : Moment) :
    future.Gets foreign levels place begin future.outer.rest
      (Snapshot.insideAll future.outer.layers begin) := by
  obtain ⟨⟨layers, rest, value, _⟩, _⟩ := future
  subst awaits held
  exact ⟨[], value, rfl, rfl, rfl, rfl⟩

/-- A future may have been left by polls on any threads, and the thread that polls it now
may have anything in its slots and on its chain.  At every place of the poll where no
handle is open the thread shows what is in scope inside the layers of the future, or of
the futures on the way to the one that is awaited.  The types on the innermost layer have
its captors, all others what is in scope around it, and it is what is captured there.
After the poll, however it ends, the thread is as it was, and nothing has been found out
of order.  These are places of the polls themselves: each poll, of the future or of one on
the way, starts inside its layers and ends as what it goes on with from there does, and
as the rest does from any of its places, where a step goes on with what is left of its
body.  A poll by name is one of the future of this name, which is put back as the poll
leaves it. -/
theorem poll_inside_layers {future left : Future} (tidy : future.Tidy foreign)
    (leaves : future.LeftAs foreign left) (levels : Nat) (place : Place) {context : Context}
    {process : Process Session} (staged : process.Tidy foreign)
    (hosts : process.Hosts context.thread) :
    let before := (process.thread context.thread).view context.thread
    left.outer.layers = future.outer.layers ∧
    (∀ layers depth inner begin now,
      left.Polls foreign levels place (context, process) layers depth inner begin →
      inner.Stops foreign depth place begin now →
        let thread := now.2.thread context.thread
        let around := layers ++ inner.outer.layers
        now.1.thread = context.thread ∧ now.2.warnings = process.warnings ∧
        thread.Shows (around.foldl Scene.inside before) ∧
        ∀ outer snapshot, around = outer ++ [snapshot] →
          (∀ type ∈ snapshot.types,
            thread.current type = Chain.captor? type snapshot.chain) ∧
          (∀ type, type ∉ snapshot.types →
            thread.current type = (outer.foldl Scene.inside before).environment type) ∧
          (snapshot.isEmpty = false →
            (Snapshot.capture now.1 now.2).1 = .value snapshot)) ∧
    Untouched context.thread process
      (pollInside (.ofLevels levels) place left context process).2 ∧
    (∀ name, foreign name = false →
      Untouched context.thread process
        (pollOnce (.ofLevels levels) place name context process).2) ∧
    (∀ layers depth inner begin,
      left.Polls foreign levels place (context, process) layers depth inner begin →
        let start := Snapshot.insideAll inner.outer.layers begin
        let poll := pollInside (.ofLevels depth) place inner begin.1 begin.2
        EndsLike poll (advance (.ofLevels depth) place inner start.1 start.2) ∧
        (inner.awaited = [] →
          inner.Gets foreign depth place begin inner.outer.rest start) ∧
        ∀ rest now, inner.Gets foreign depth place begin rest now →
          ∃ value, EndsLike poll
            (follow (.ofLevels depth) place inner.outer.layers 0 [] value rest now.1 now.2)) ∧
    (∀ depth (spot : Place) (step : Step) count rounds front rest (begin : Moment) value last,
      step.rounds? = some (count, front ++ rest) → rounds < count →
      Step.runUpTo (.ofLevels depth) spot (front ++ rest) rounds front begin.1 begin.2 =
        (.value value, last) →
      spot.labels.length ≤ maxLabels → begin.2.client.steps < maxSteps →
        let round := (Interpreter.ofLevels depth).steps spot front.length value rest
        step.runLimited (.ofLevels depth) spot begin.1 begin.2 =
          step.goingOn (.ofLevels depth) spot (front ++ rest) round (count - rounds - 1)
            begin.1 last) ∧
    ∀ name home named without,
      let idle := { without with client := { without.client with suspended := none } }
      let polled := (pollInside (.ofLevels levels) place named context idle).1
      foreign name = false →
      FutureHome.take? name context process = (.value (some (home, named)), without) →
      ∃ next last, pollOnce (.ofLevels levels) place name context process =
          home.settle name named.outer.layers next (Progress.answered polled) context last ∧
        ∀ progress, polled = .value progress → next = progress.remaining? := by
  intro before
  obtain ⟨fine, same⟩ := leaves.tidy tidy
  have interprets : (Interpreter.ofLevels levels).Tidy foreign :=
    Interpreter.ofLevels_tidy levels
  have start : Moment.Stands foreign context.thread process.warnings before (context, process) :=
    .here (context, process) staged hosts
  refine ⟨same, ?_, (pollInside_keeps interprets place fine).untouched staged hosts,
    fun name own => (pollOnce_keeps interprets place own).untouched staged hosts, ?_,
    fun _ _ _ _ _ _ _ _ _ _ same more reached shallow early =>
      Step.runLimited_goes_on same more reached shallow early,
    fun name home named without own taken =>
      pollOnce_settles interprets place own staged hosts taken⟩
  · intro layers depth inner begin now polls stops thread around
    obtain ⟨tidyInner, there⟩ := polls.stands fine start
    have stands := stops.stands tidyInner there
    rw [← List.foldl_append] at stands
    have here : now.1.thread = context.thread := stands.thread
    have shows : thread.Shows (around.foldl Scene.inside before) := by
      have shown := stands.shows
      rwa [here] at shown
    refine ⟨here, stands.warnings, shows, fun outer snapshot split => ?_⟩
    rw [split, List.foldl_append] at shows
    obtain ⟨installed, others, chain⟩ := shows.inside
    refine ⟨installed, others, fun occupied => ?_⟩
    obtain ⟨captured, -⟩ := Snapshot.capture_moves context.thread thread now.1 now.2 here rfl
    rw [captured, chain occupied]
    rfl
  · intro layers depth inner begin polls
    obtain ⟨tidyInner, there⟩ := polls.stands fine start
    exact ⟨pollInside_ends tidyInner place there,
      fun awaits => gets_start awaits tidyInner.outer.held depth place begin,
      fun rest now gets => gets.goes_on tidyInner there⟩

/-- A future that has paused on the main thread goes on with its own captor on a worker that
has another one. -/
theorem poll_inside_layers_elsewhere :
    let alpha := Channel.alpha.captorType
    let beta := Channel.beta.captorType
    let snapshot : Snapshot := ⟨[⟨⟨.main, 0⟩, alpha, "made"⟩]⟩
    let future := ofSteps false snapshot [.pause, .unknown]
    let left := future.upTo future.outer.rest.tail
    let worker : ThreadId := .worker "elsewhere"
    let slots := (Thread.fresh.setCurrent alpha (some "other")).setCurrent beta (some "own")
    let process := (Process.start Session.start).setThread worker slots
    let context : Context := ⟨.debug, worker, false, []⟩
    (∃ now, left.Stops (fun _ => false) 1 .start (context, process) now ∧
        (now.2.thread worker).current alpha = some "made" ∧
        (now.2.thread worker).current beta = some "own" ∧
        (Snapshot.capture now.1 now.2).1 = .value snapshot) ∧
      Untouched worker process (pollInside (.ofLevels 1) .start left context process).2 := by
  intro alpha beta snapshot future left worker slots process context
  let foreign : String → Bool := fun _ => false
  have tidy : future.Tidy foreign := tidy_ofSteps false snapshot rfl
  have started : (Process.start Session.start).Hosts .main := ⟨rfl, nofun⟩
  have leaves : future.LeftAs foreign left :=
    @LeftAs.poll foreign future future left 1 .start ⟨.debug, .main, false, []⟩
      (Process.start Session.start) .start Process.start_tidy started rfl
  have staged : process.Tidy foreign :=
    { session := Session.start_tidy
      fresh := fun _ _ => rfl
      bare := fun _ _ => ⟨rfl, fun _ _ => rfl⟩
      workers := fun name => by
        rw [Process.thread_setThread]
        split <;> rfl }
  have hosts : process.Hosts worker := ⟨rfl, nofun⟩
  obtain ⟨-, places, untouched, -, polls, -⟩ :=
    @poll_inside_layers foreign future left tidy leaves 1 .start context process staged hosts
  obtain ⟨-, starts, -⟩ := polls [] 1 left (context, process) .own
  have stops : left.Stops foreign 1 .start (context, process) _ := .between (starts rfl)
  obtain ⟨-, -, -, inside⟩ := places [] 1 left (context, process) _ .own stops
  obtain ⟨installed, others, captured⟩ := inside [] snapshot rfl
  refine ⟨⟨_, stops, ?_, ?_, captured rfl⟩, untouched⟩
  · exact installed alpha (by decide)
  · exact others beta (by decide)

end Future

end Ambient.Script
