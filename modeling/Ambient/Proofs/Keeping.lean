import Ambient.Proofs.Lexical
import Ambient.Proofs.Stories
import Ambient.Proofs.Tidy

/-!
# Acts that keep what is in scope

A tidy script leaves every thread as it finds it, up to the threads that it starts
itself, and no misuse is recorded.  `Keeps` says this of an act, wherever all that
the session can run is tidy, and of its value that it is a good one.  There is one
rule for each way to put acts together, one for scopes and one for calls; what goes
on between the start and the end of a scope is again a matter of `Keeps`.
-/

namespace Ambient

/-! ## Threads that look the same -/

/-- A thread shows the same as before. -/
structure Thread.Alike (before after : Thread) : Prop where
  live : after.live = before.live
  current : ∀ type, after.current type = before.current type
  chain : after.chain = before.chain

namespace Thread

/-- The scene that a thread shows by itself. -/
def view (thread : Thread) (id : ThreadId) : Scene :=
  ⟨id, thread.current, thread.chain, []⟩

variable {first middle last thread : Thread} {scene : Scene}

theorem shows_view (live : thread.live) (id : ThreadId) : thread.Shows (thread.view id) :=
  ⟨live, fun _ => rfl, rfl⟩

namespace Alike

theorem refl (thread : Thread) : thread.Alike thread :=
  ⟨rfl, fun _ => rfl, rfl⟩

theorem trans (front : first.Alike middle) (back : middle.Alike last) : first.Alike last :=
  ⟨back.live.trans front.live, fun type => (back.current type).trans (front.current type),
    back.chain.trans front.chain⟩

theorem shows (alike : first.Alike last) (shown : first.Shows scene) : last.Shows scene :=
  ⟨alike.live.trans shown.live, fun type => (alike.current type).trans (shown.current type),
    alike.chain.trans shown.chain⟩

theorem of_shows (before : first.Shows scene) (after : last.Shows scene) : first.Alike last :=
  ⟨after.live.trans before.live.symm,
    fun type => (after.current type).trans (before.current type).symm,
    after.chain.trans before.chain.symm⟩

end Alike

end Thread

/-- The end of a handle looks only at what its thread shows. -/
theorem Handle.faults_alike (handle : Handle) {first last : Thread} (alike : first.Alike last) :
    handle.faults last = handle.faults first := by
  cases handle with
  | slot scope => simp only [faults, Scope.faults, alike.current]
  | crosser scope =>
      simp only [faults, Scope.faults, CrosserScope.chainFaults, alike.current, alike.chain]

theorem Handle.closed_alike (handle : Handle) {first last : Thread} (alike : first.Alike last) :
    (handle.closed first).Alike (handle.closed last) where
  live := by rw [live_closed, live_closed, alike.live]
  current type := by
    cases handle <;> simp [closed, Scope.closed, alike.current, alike.live]
  chain := by
    cases handle <;> simp [closed, Scope.closed, alike.chain, alike.live]

/-- A handle that ends after a body that keeps its thread finds everything in order and
puts everything back. -/
theorem Opening.ends {opening : Opening} {id : ThreadId} {thread left : Thread}
    (live : thread.live) (inside : (opening.entered id thread).Alike left) :
    (opening.handle id thread).faults left = [] ∧
      thread.Alike ((opening.handle id thread).closed left) := by
  have shows : thread.Shows (thread.view id) := thread.shows_view live id
  have shown := inside.shows (opening.shows_entered shows)
  exact ⟨opening.silent shows shown, .of_shows shows (opening.shows_closed shows shown)⟩

/-- So does a call. -/
theorem Snapshot.ends {snapshot : Snapshot} (occupied : snapshot.isEmpty = false)
    {thread left : Thread} (live : thread.live) (inside : (snapshot.entered thread).Alike left) :
    snapshot.faults thread left = [] ∧ thread.Alike (snapshot.closed thread left) := by
  have shows : thread.Shows (thread.view .main) := thread.shows_view live .main
  have shown := inside.shows (snapshot.shows_entered occupied shows)
  exact ⟨snapshot.silent occupied shown thread,
    .of_shows shows (snapshot.shows_closed occupied shows shown)⟩

/-! ## Processes -/

namespace Process

open Script

/-- The misuses recorded so far, those that the history has taken included. -/
def warnings (process : Process Session) : List Misuse :=
  process.client.history.reverse.filterMap Happening.misuse? ++ process.misuses

/-- All that can be run is tidy, there is nothing yet on the threads to be spawned, and
workers keep their slots. -/
structure Tidy (foreign : String → Bool) (process : Process Session) : Prop where
  session : process.client.Tidy foreign
  fresh : ∀ index, process.client.spawned < index →
    process.thread (.spawned index) = .fresh
  bare : ∀ index, process.client.spawned < index →
    process.client.Bare foreign (.spawned index)
  workers : ∀ name, (process.thread (.worker name)).live

/-- A thread has its slots, and it is not one that is still to be spawned. -/
structure Hosts (process : Process Session) (id : ThreadId) : Prop where
  live : (process.thread id).live
  started : ∀ index, id = .spawned index → index ≤ process.client.spawned

/-- A run on one thread has brought it back to what it showed at a certain point.  It has
left all others as they were, except those that it spawned, and recorded no misuse. -/
structure Restored (foreign : String → Bool) (id : ThreadId) (base : Thread)
    (process last : Process Session) : Prop where
  own : base.Alike (last.thread id)
  others : ∀ other, other ≠ id →
    other.Outside process.client.spawned last.client.spawned →
      (process.thread other).Alike (last.thread other)
  spawned : process.client.spawned ≤ last.client.spawned
  bare : ∀ thread, process.client.Bare foreign thread → last.client.Bare foreign thread
  warnings : last.warnings = process.warnings
  tidy : last.Tidy foreign

variable {foreign : String → Bool} {id : ThreadId} {base entered after : Thread}
  {process next left last : Process Session}

theorem start_tidy : (start Session.start).Tidy foreign where
  session := Session.start_tidy
  fresh _ _ := rfl
  bare _ _ := ⟨rfl, fun _ _ => rfl⟩
  workers _ := rfl

theorem Hosts.distinct (hosts : process.Hosts id) {index : Nat}
    (later : process.client.spawned < index) : id ≠ .spawned index :=
  fun same => Nat.not_lt.mpr (hosts.started index same) later

theorem Tidy.hosts_worker (tidy : process.Tidy foreign) (name : String) :
    process.Hosts (.worker name) :=
  ⟨tidy.workers name, nofun⟩

/-- The start of a scope leaves all tidy. -/
theorem Tidy.moved (tidy : process.Tidy foreign) (hosts : process.Hosts id)
    (moved : Moved id process next [] after) (live : after.live) : next.Tidy foreign where
  session := moved.client ▸ tidy.session
  fresh index later := by
    rw [moved.client] at later
    rw [moved.others _ (hosts.distinct later)]
    exact tidy.fresh index later
  bare := moved.client ▸ tidy.bare
  workers name := by
    by_cases same : id = .worker name
    · rw [← same, moved.own]
      exact live
    · rw [moved.others _ same]
      exact tidy.workers name

theorem Hosts.moved (hosts : process.Hosts id) (moved : Moved id process next [] after)
    (live : after.live) : next.Hosts id where
  live := moved.own ▸ live
  started := moved.client ▸ hosts.started

/-- The process that the next thread starts in. -/
def counted (process : Process Session) : Process Session :=
  { process with
    client := { process.client with spawned := process.client.spawned + 1 } }

/-- The thread that is spawned next. -/
def child (process : Process Session) : ThreadId :=
  .spawned (process.client.spawned + 1)

theorem Tidy.counted (tidy : process.Tidy foreign) : process.counted.Tidy foreign where
  session := ⟨tidy.session.receivers, tidy.session.registers, tidy.session.futures,
    tidy.session.suspended⟩
  fresh index later := tidy.fresh index (Nat.lt_of_succ_lt later)
  bare index later :=
    have bare := tidy.bare index (Nat.lt_of_succ_lt later)
    ⟨bare.handles, bare.futures⟩
  workers := tidy.workers

theorem Tidy.hosts_child (tidy : process.Tidy foreign) : process.counted.Hosts process.child where
  live := by
    have same : process.counted.thread process.child = .fresh :=
      tidy.fresh _ (Nat.lt_succ_self _)
    exact same ▸ rfl
  started index same := Nat.le_of_eq (ThreadId.spawned.inj same).symm

theorem warnings_moved (moved : Moved id process next [] after) :
    next.warnings = process.warnings := by
  rw [warnings, warnings, moved.client, moved.misuses, List.append_nil]

namespace Restored

theorem refl (tidy : process.Tidy foreign) (id : ThreadId) :
    Restored foreign id (process.thread id) process process where
  own := .refl _
  others _ _ _ := .refl _
  spawned := Nat.le_refl _
  bare _ bare := bare
  warnings := rfl
  tidy := tidy

/-- The second of two runs says what the thread shows in the end. -/
theorem followed (first : Restored foreign id entered process next)
    (second : Restored foreign id base next last) : Restored foreign id base process last where
  own := second.own
  others other distinct apart :=
    (first.others other distinct (apart.narrow (Nat.le_refl _) second.spawned)).trans
      (second.others other distinct (apart.narrow first.spawned (Nat.le_refl _)))
  spawned := Nat.le_trans first.spawned second.spawned
  bare thread bare := second.bare thread (first.bare thread bare)
  warnings := second.warnings.trans first.warnings
  tidy := second.tidy

theorem trans (first : Restored foreign id base process next)
    (second : Restored foreign id (next.thread id) next last) :
    Restored foreign id base process last :=
  { first.followed second with own := first.own.trans second.own }

theorem hosts (run : Restored foreign id base process last) (hosts : process.Hosts id)
    (live : base.live) : last.Hosts id where
  live := run.own.live.trans live
  started index same := Nat.le_trans (hosts.started index same) run.spawned

/-- The start of a scope brings the thread inside. -/
theorem entering (tidy : process.Tidy foreign) (hosts : process.Hosts id)
    (enter : Moved id process next [] entered) (live : entered.live) :
    Restored foreign id entered process next where
  own := enter.own ▸ .refl _
  others other distinct _ := enter.others other distinct.symm ▸ .refl _
  spawned := Nat.le_of_eq (by rw [enter.client])
  bare thread bare := enter.client ▸ bare
  warnings := warnings_moved enter
  tidy := tidy.moved hosts enter live

/-- Its end brings the thread back to where it showed what it shows now. -/
theorem leaving (run : Restored foreign id entered process next) (hosts : process.Hosts id)
    (inside : entered.live) (leave : Moved id next last [] after) (alike : base.Alike after)
    (live : base.live) : Restored foreign id base process last :=
  have staged := run.hosts hosts inside
  { run.followed (entering run.tidy staged leave (alike.live.trans live)) with
    own := leave.own ▸ alike }

/-- A run on one thread is a run on any other that has restored everything there. -/
theorem elsewhere {other : ThreadId}
    (run : Restored foreign other (process.thread other) process last)
    (hosts : process.Hosts id) : Restored foreign id (process.thread id) process last where
  own := by
    by_cases same : id = other
    · exact same ▸ run.own
    · exact run.others id same fun index named => .inl (hosts.started index named)
  others third _ outside := by
    by_cases same : third = other
    · exact same ▸ run.own
    · exact run.others third same outside
  spawned := run.spawned
  bare := run.bare
  warnings := run.warnings
  tidy := run.tidy

/-- Only the session has changed, with all that matters here as before. -/
theorem of_client (tidy : process.Tidy foreign) {session : Session}
    (fine : session.Tidy foreign) (beside : process.client.Beside foreign session)
    (id : ThreadId) :
    Restored foreign id (process.thread id) process { process with client := session } where
  own := .refl _
  others _ _ _ := .refl _
  spawned := Nat.le_of_eq beside.spawned.symm
  bare thread bare := bare.beside beside
  warnings := by
    simp only [Process.warnings, beside.history]
    rfl
  tidy := by
    refine ⟨fine, fun index later => ?_, fun index later => ?_, tidy.workers⟩
    · exact tidy.fresh index (beside.spawned ▸ later)
    · exact (tidy.bare index (beside.spawned ▸ later)).beside beside

/-- A thread that is spawned, run and torn down leaves all others alone. -/
theorem of_spawned (hosts : process.Hosts id)
    (run : Restored foreign process.child entered process.counted left)
    (tear : Moved process.child left last [] after) :
    Restored foreign id (process.thread id) process last := by
  have grown : process.client.spawned + 1 ≤ left.client.spawned := run.spawned
  have others (other : ThreadId)
      (outside : other.Outside process.client.spawned left.client.spawned) :
      (process.thread other).Alike (last.thread other) := by
    -- The child has a number among those that were spawned in between.
    have distinct : other ≠ process.child := by
      intro same
      have bound := outside _ same
      omega
    rw [tear.others other distinct.symm]
    exact run.others other distinct (outside.narrow (Nat.le_succ _) (Nat.le_refl _))
  have later {index : Nat} (beyond : last.client.spawned < index) :
      process.child ≠ .spawned index := by
    intro same
    have bound := ThreadId.spawned.inj same
    rw [tear.client] at beyond
    omega
  refine ⟨others id fun index same => .inl (hosts.started index same), fun other _ outside => ?_,
    ?_, ?_, ?_, ?_, fun index beyond => ?_, ?_, fun name => ?_⟩
  · exact others other (tear.client ▸ outside)
  · rw [tear.client]
    exact Nat.le_of_succ_le grown
  · rw [tear.client]
    exact fun thread bare => run.bare thread ⟨bare.handles, bare.futures⟩
  · exact (warnings_moved tear).trans run.warnings
  · exact tear.client ▸ run.tidy.session
  · rw [tear.others _ (later beyond)]
    exact run.tidy.fresh index (tear.client ▸ beyond)
  · rw [tear.client]
    exact run.tidy.bare
  · rw [tear.others _ (by simp [child])]
    exact run.tidy.workers name

end Restored

end Process

/-! ## Acts -/

namespace Script

section

variable {foreign : String → Bool}

/-- The result of a run on one thread: all is restored, and a value is a good one. -/
structure Leaves {α : Type} (foreign : String → Bool) (id : ThreadId) (base : Thread)
    (process : Process Session) (result : Outcome α × Process Session) (good : α → Prop) :
    Prop where
  restored : process.Restored foreign id base result.2
  value : ∀ value, result.1 = .value value → good value

namespace Leaves

variable {α β : Type} {good : α → Prop} {fine : β → Prop} {act : Run α} {close : Run Unit}
  {context : Context} {base : Thread} {process : Process Session}

/-- A run that goes on from where the first has left everything. -/
theorem bind {next : α → Run β} (hosts : process.Hosts context.thread) (live : base.live)
    (first : Leaves foreign context.thread base process (act context process) good)
    (second : ∀ value (middle : Process Session), good value → middle.Tidy foreign →
      middle.Hosts context.thread →
        process.Restored foreign context.thread base middle →
          Leaves foreign context.thread (middle.thread context.thread) middle
            (next value context middle) fine) :
    Leaves foreign context.thread base process ((act >>= next) context process) fine := by
  rw [Act.bind_apply]
  cases run : act context process with
  | mk outcome middle =>
      rw [run] at first
      cases outcome with
      | panic panic => exact ⟨first.restored, nofun⟩
      | value value =>
          have rest := second value middle (first.value value rfl) first.restored.tidy
            (first.restored.hosts hosts live) first.restored
          exact ⟨first.restored.trans rest.restored, rest.value⟩

/-- A body between a start and an end that finds everything in order. -/
theorem bracket {entered : Thread} (closed : Thread → Thread) {next : Process Session}
    (tidy : process.Tidy foreign) (hosts : process.Hosts context.thread) (live : base.live)
    (enter : Process.Moved context.thread process next [] entered) (inside : entered.live)
    (run : Leaves foreign context.thread (next.thread context.thread) next
      (act context next) good)
    (ends : ∀ left : Thread, entered.Alike left →
      close.Moves context.thread left () [] (closed left) ∧ base.Alike (closed left)) :
    Leaves foreign context.thread base process (act.ensuring close context next) good := by
  have restored := (Process.Restored.entering tidy hosts enter inside).trans run.restored
  obtain ⟨moves, alike⟩ := ends _ restored.own
  refine ⟨restored.leaving hosts inside (moves.close act rfl rfl) alike live, ?_⟩
  rw [moves.close_outcome act rfl rfl]
  intro value same
  apply run.value
  cases outcome : (act context next).1 with
  | value found =>
      rw [outcome] at same
      exact same
  | panic panic =>
      rw [outcome] at same
      contradiction

end Leaves

/-- Wherever all is tidy the act keeps what is in scope and yields a good value. -/
def Keeps {α : Type} (foreign : String → Bool) (act : Run α) (good : α → Prop) : Prop :=
  ∀ (context : Context) (process : Process Session), process.Tidy foreign →
    process.Hosts context.thread →
      Leaves foreign context.thread (process.thread context.thread) process
        (act context process) good

/-- Any value is fine. -/
def Any {α : Type} (_ : α) : Prop :=
  True

namespace Keeps

variable {α β : Type} {good : α → Prop} {fine : β → Prop} {act body : Run α}

/-- An act that changes nothing. -/
theorem of_still {see : Context → Process Session → Outcome α}
    (still : ∀ context process, act context process = (see context process, process))
    (value : ∀ context process value, process.Tidy foreign →
      see context process = .value value → good value) : Keeps foreign act good := by
  intro context process tidy hosts
  rw [still]
  exact ⟨.refl tidy _, fun found => value context process found tidy⟩

theorem pure {value : α} (fact : good value) : Keeps foreign (Pure.pure value) good :=
  of_still (fun _ _ => rfl) fun _ _ _ _ same => Outcome.value.inj same ▸ fact

theorem raise (panic : Panic) : Keeps foreign (Act.raise panic) good :=
  of_still (fun _ _ => rfl) fun _ _ _ _ => nofun

theorem session : Keeps foreign Run.session (Session.Tidy foreign) :=
  of_still (fun _ _ => rfl) fun _ _ _ tidy same => Outcome.value.inj same ▸ tidy.session

theorem process : Keeps foreign (Act.process : Run _) Any :=
  of_still (fun _ _ => rfl) fun _ _ _ _ _ => trivial

theorem context : Keeps foreign (Act.context : Run _) Any :=
  of_still (fun _ _ => rfl) fun _ _ _ _ _ => trivial

theorem bind {next : α → Run β} (first : Keeps foreign act good)
    (second : ∀ value, good value → Keeps foreign (next value) fine) :
    Keeps foreign (act >>= next) fine :=
  fun context process tidy hosts =>
    (first context process tidy hosts).bind hosts hosts.live
      fun value middle found fine staged _ => second value found context middle fine staged

theorem attempt (keeps : Keeps foreign act good) :
    Keeps foreign (Act.attempt act) fun outcome =>
      ∀ value, outcome = .value value → good value := by
  intro context process tidy hosts
  have left := keeps context process tidy hosts
  exact ⟨left.restored, fun outcome same => Outcome.value.inj same ▸ left.value⟩

theorem conclude {outcome : Outcome α}
    (value : ∀ value, outcome = .value value → good value) :
    Keeps foreign (Act.conclude outcome) good := by
  cases outcome with
  | value found => exact .pure (value found rfl)
  | panic panic => exact .raise panic

/-- A close runs after a value, or unwinding after a panic. -/
theorem ensuring {close : Run Unit} (first : Keeps foreign body good)
    (second : Keeps foreign close Any) : Keeps foreign (body.ensuring close) good := by
  intro context process tidy hosts
  have left := first context process tidy hosts
  cases run : body context process with
  | mk outcome middle =>
      rw [run] at left
      have staged := left.restored.hosts hosts hosts.live
      cases outcome with
      | value value =>
          have closing := second context middle left.restored.tidy staged
          cases closed : close context middle with
          | mk ending last =>
              rw [closed] at closing
              have restored := left.restored.trans closing.restored
              simp only [Act.ensuring, run, closed]
              cases ending with
              | value _ => exact ⟨restored, left.value⟩
              | panic _ => exact ⟨restored, by rintro _ ⟨⟩⟩
      | panic panic =>
          have closing := second { context with unwinding := true } middle
            left.restored.tidy staged
          simp only [Act.ensuring, run, Act.unwound]
          exact ⟨left.restored.trans closing.restored, by rintro _ ⟨⟩⟩

theorem onPanic {close : Run Unit} (first : Keeps foreign body good)
    (second : Keeps foreign close Any) : Keeps foreign (body.onPanic close) good := by
  intro context process tidy hosts
  have left := first context process tidy hosts
  cases run : body context process with
  | mk outcome middle =>
      rw [run] at left
      cases outcome with
      | value value =>
          simp only [Act.onPanic, run]
          exact left
      | panic panic =>
          have closing := second { context with unwinding := true } middle
            left.restored.tidy (left.restored.hosts hosts hosts.live)
          simp only [Act.onPanic, run, Act.unwound]
          exact ⟨left.restored.trans closing.restored, by rintro _ ⟨⟩⟩

theorem holding (captors : List CaptorId) (keeps : Keeps foreign act good) :
    Keeps foreign (Act.holding captors act) good :=
  fun context process tidy hosts =>
    keeps { context with held := captors ++ context.held } process tidy hosts

/-- Acts that only look at their thread, or change the registry alone. -/
theorem of_moves {value : Thread → α}
    (moves : ∀ id thread, act.Moves id thread (value thread) [] thread) :
    Keeps foreign act Any := by
  intro context process tidy hosts
  obtain ⟨-, moved⟩ := moves context.thread _ context process rfl rfl
  exact ⟨.entering tidy hosts moved hosts.live, fun _ _ => trivial⟩

theorem modify {change : Session → Session}
    (fine : ∀ session : Session, session.Tidy foreign → (change session).Tidy foreign)
    (beside : ∀ session : Session, session.Beside foreign (change session)) :
    Keeps foreign (Run.modify change) Any :=
  fun _ process tidy _ =>
    ⟨.of_client tidy (fine _ tidy.session) (beside process.client) _, fun _ _ => trivial⟩

/-- A body in a scope of its own. -/
theorem within (opening : Opening) {body : Handle → Run α}
    (keeps : ∀ handle, Keeps foreign (body handle) good) :
    Keeps foreign (opening.start >>= fun handle => (body handle).ensuring handle.finish)
      good := by
  intro context process tidy hosts
  let thread := process.thread context.thread
  let handle := opening.handle context.thread thread
  obtain ⟨outcome, enter⟩ := opening.start_moves context.thread thread context process rfl rfl
  have inside : (opening.entered context.thread thread).live :=
    (opening.live_entered context.thread thread).trans hosts.live
  rw [Act.bind_of_value outcome]
  refine .bracket handle.closed tidy hosts hosts.live enter inside
    (keeps handle context _ (tidy.moved hosts enter inside) (hosts.moved enter inside))
    fun left alike => ?_
  obtain ⟨silent, back⟩ := Opening.ends hosts.live alike
  exact ⟨silent ▸ handle.finish_moves context.thread left, back⟩

/-- A body in a call. -/
theorem inside (snapshot : Snapshot) (keeps : Keeps foreign body good) :
    Keeps foreign (snapshot.run body) good := by
  by_cases empty : snapshot.chain = []
  · rw [Snapshot.run_of_empty empty]
    exact keeps
  intro context process tidy hosts
  let thread := process.thread context.thread
  let start := snapshot.inside context process
  have enter : Process.Moved context.thread process start.2 [] (snapshot.entered thread) :=
    snapshot.inside_moved empty context process
  have inside : (snapshot.entered thread).live := (snapshot.live_entered thread).trans hosts.live
  have here : start.1.thread = context.thread := snapshot.inside_thread context process
  have run := keeps start.1 start.2 (tidy.moved hosts enter inside)
    (here.symm ▸ hosts.moved enter inside)
  rw [here] at run
  rw [Snapshot.run_of_occupied empty]
  refine .bracket (snapshot.closed thread) tidy hosts hosts.live enter inside run
    fun left alike => ?_
  have occupied : snapshot.isEmpty = false := by simpa [Snapshot.isEmpty] using empty
  obtain ⟨silent, back⟩ := Snapshot.ends occupied hosts.live alike
  exact ⟨silent ▸ snapshot.leave_moves thread context.thread left, back⟩

theorem insideAll (snapshots : List Snapshot) (keeps : Keeps foreign body good) :
    Keeps foreign (Snapshot.runAll snapshots body) good := by
  induction snapshots with
  | nil => exact keeps
  | cons snapshot rest ih => exact .inside snapshot ih

end Keeps

end

end Script

end Ambient
