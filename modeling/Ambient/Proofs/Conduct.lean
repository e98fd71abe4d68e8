import Ambient.Proofs.Reentry

/-!
# What a thread may do with its handles

A conduct is a run of a thread that is free to misuse its handles: it opens
them, ends or forgets them in any order, and does the same inside calls of
whatever snapshots it has, among panics that pass or are stopped.  A course
says the same without panics: the steps of a run one after the other, and the
calls as runs inside a run.  What holds of every course holds of every conduct.
-/

namespace Ambient

/-! ## Handles at hand -/

/-- The crosser of a handle, if it has one. -/
def Handle.crosser? : Handle → Option Crosser
  | .slot _ => none
  | .crosser scope => some scope.crosser

/-- What happens to a crosser on the thread that opened it. -/
inductive Event where
  | opened (crosser : Crosser)
  | ended (crosser : Crosser)
deriving DecidableEq, Repr

/-- What a thread has at hand. -/
structure Desk where
  /-- The handles that can be ended, latest first. -/
  handles : List Handle
  forgotten : List Handle
  snapshots : List Snapshot
  /-- Which crossers were opened and ended, in order. -/
  history : List Event
deriving DecidableEq, Repr

namespace Desk

def empty : Desk :=
  ⟨[], [], [], []⟩

/-- The handles whose scopes have not ended. -/
def unended (desk : Desk) : List Handle :=
  desk.handles ++ desk.forgotten

def keep (desk : Desk) (handle : Handle) : Desk :=
  { desk with
    handles := handle :: desk.handles
    history := desk.history ++ handle.crosser?.toList.map .opened }

/-- The handle at a position is taken away to be ended. -/
def without (desk : Desk) (position : Nat) (handle : Handle) : Desk :=
  { desk with
    handles := desk.handles.eraseIdx position
    history := desk.history ++ handle.crosser?.toList.map .ended }

def forget (desk : Desk) (position : Nat) (handle : Handle) : Desk :=
  { desk with
    handles := desk.handles.eraseIdx position
    forgotten := handle :: desk.forgotten }

def shelve (desk : Desk) (snapshot : Snapshot) : Desk :=
  { desk with snapshots := snapshot :: desk.snapshots }

/-- The snapshot at a position; beyond the last one they are empty. -/
def snapshot (desk : Desk) (position : Nat) : Snapshot :=
  desk.snapshots[position]?.getD .empty

theorem snapshot_mem {desk : Desk} {position : Nat}
    (occupied : (desk.snapshot position).chain ≠ []) :
    desk.snapshot position ∈ desk.snapshots := by
  unfold snapshot at occupied ⊢
  cases found : desk.snapshots[position]? with
  | none => simp [found, Snapshot.empty] at occupied
  | some snapshot => simpa using List.mem_of_getElem? found

end Desk

namespace Chain

/-- Whether the crossers on a chain that a thread opened are among the first
ones it did. -/
def Known (id : ThreadId) (opened : Nat) (chain : Chain) : Prop :=
  ∀ crosser ∈ chain, crosser.id.thread = id → crosser.id.index < opened

instance (id : ThreadId) (opened : Nat) (chain : Chain) :
    Decidable (Known id opened chain) :=
  inferInstanceAs (Decidable (∀ crosser ∈ chain, _))

end Chain

/-! ## Conducts -/

inductive Conduct where
  | rest
  | andThen (first second : Conduct)
  | start (opening : Opening)
  | finish (position : Nat)
  | forget (position : Nat)
  | capture
  /-- Get a snapshot from elsewhere. -/
  | receive (snapshot : Snapshot)
  | call (position : Nat) (body : Conduct)
  | raise (message : String)
  | attempt (body : Conduct)
  | ensuring (body close : Conduct)

namespace Conduct

def run : Conduct → Act Desk Unit
  | .rest => pure ()
  | .andThen first second => do
      first.run
      second.run
  | .start opening => do
      let handle ← opening.start
      Act.modifyClient (·.keep handle)
  | .finish position => do
      match (← Act.client).handles[position]? with
      | none => pure ()
      | some handle =>
          Act.modifyClient (·.without position handle)
          handle.finish
  | .forget position => do
      match (← Act.client).handles[position]? with
      | none => pure ()
      | some handle => Act.modifyClient (·.forget position handle)
  | .capture => do
      let snapshot ← Snapshot.capture
      Act.modifyClient (·.shelve snapshot)
  | .receive snapshot => do
      -- A crosser that this thread has not opened yet is on no snapshot.
      if snapshot.chain.Known (← Act.context).thread (← Act.thread).opened then
        Act.modifyClient (·.shelve snapshot)
  | .call position body => do
      let snapshot := (← Act.client).snapshot position
      snapshot.run body.run
  | .raise message => Act.raise (.raised message)
  | .attempt body => do
      let _ ← Act.attempt body.run
  | .ensuring body close => body.run.ensuring close.run

end Conduct

/-! ## Courses -/

/-- What a course is about: the thread and what it has at hand. -/
structure Standing where
  thread : Thread
  desk : Desk

def Process.standing (process : Process Desk) (id : ThreadId) : Standing :=
  ⟨process.thread id, process.client⟩

/-- A course leads from one standing to another and finds misuses on the way. -/
inductive Course (id : ThreadId) : Standing → List Misuse → Standing → Prop where
  | rest (standing : Standing) : Course id standing [] standing
  | andThen {before middle after : Standing} {found more : List Misuse} :
      Course id before found middle → Course id middle more after →
        Course id before (found ++ more) after
  | started (thread : Thread) (desk : Desk) (opening : Opening) :
      Course id ⟨thread, desk⟩ []
        ⟨opening.entered id thread, desk.keep (opening.handle id thread)⟩
  | finished (thread : Thread) {desk : Desk} {position : Nat} {handle : Handle}
      (found : desk.handles[position]? = some handle) :
      Course id ⟨thread, desk⟩ (handle.faults thread)
        ⟨handle.closed thread, desk.without position handle⟩
  | forgotten (thread : Thread) {desk : Desk} {position : Nat} {handle : Handle}
      (found : desk.handles[position]? = some handle) :
      Course id ⟨thread, desk⟩ [] ⟨thread, desk.forget position handle⟩
  | captured (thread : Thread) (desk : Desk) :
      Course id ⟨thread, desk⟩ [] ⟨thread, desk.shelve ⟨thread.chain⟩⟩
  | received (thread : Thread) (desk : Desk) {snapshot : Snapshot}
      (known : snapshot.chain.Known id thread.opened) :
      Course id ⟨thread, desk⟩ [] ⟨thread, desk.shelve snapshot⟩
  | called (thread : Thread) {desk : Desk} {snapshot : Snapshot}
      (occupied : snapshot.chain ≠ []) (shelved : snapshot ∈ desk.snapshots)
      {found : List Misuse} {left : Standing}
      (body : Course id ⟨snapshot.entered thread, desk⟩ found left) :
      Course id ⟨thread, desk⟩ (found ++ snapshot.faults thread left.thread)
        ⟨snapshot.closed thread left.thread, left.desk⟩

/-- No course destroys the slots of its thread. -/
theorem Course.live {id : ThreadId} {before after : Standing} {found : List Misuse}
    (course : Course id before found after) :
    after.thread.live = before.thread.live := by
  induction course with
  | rest | forgotten | captured | received => rfl
  | andThen _ _ first second => exact second.trans first
  | started => exact Opening.live_entered ..
  | finished => exact Handle.live_closed ..
  | called thread occupied shelved body ih =>
      rw [Snapshot.live_closed, ih, Snapshot.live_entered]

namespace Process

/-- A course that a process has taken on one of its threads. -/
def Took (id : ThreadId) (process last : Process Desk) : Prop :=
  ∃ found, Course id (process.standing id) found (last.standing id) ∧
    last.misuses = process.misuses ++ found

namespace Took

variable {id : ThreadId} {process next last : Process Desk}

theorem refl (id : ThreadId) (process : Process Desk) : Took id process process :=
  ⟨[], .rest _, by simp⟩

theorem trans (first : Took id process next) (second : Took id next last) :
    Took id process last := by
  rcases first with ⟨found, front, recorded⟩
  rcases second with ⟨more, back, recorded'⟩
  exact ⟨found ++ more, front.andThen back, by
    rw [recorded', recorded, List.append_assoc]⟩

/-- Without a new record the course finds nothing. -/
theorem silent_course (took : Took id process last)
    (silent : last.misuses = process.misuses) :
    Course id (process.standing id) [] (last.standing id) := by
  rcases took with ⟨found, course, recorded⟩
  rw [silent] at recorded
  rwa [List.self_eq_append_right.mp recorded] at course

/-- Moving the thread without misuse and then changing what is at hand. -/
theorem of_client {after : Thread} {change : Desk → Desk} {context : Context}
    (moved : Moved id process next [] after)
    (step : Course id (process.standing id) [] ⟨after, change process.client⟩) :
    Took id process (Act.modifyClient change context next).2 := by
  refine ⟨[], ?_, moved.misuses⟩
  rw [← moved.own, ← moved.client] at step
  exact step

end Took

theorem Moved.standing {id : ThreadId} {process last : Process Desk}
    {found : List Misuse} {after : Thread} (moved : Moved id process last found after) :
    last.standing id = ⟨after, process.client⟩ := by
  simp only [Process.standing, moved.own, moved.client]

end Process

/-- The course of a call is that of its body, between its start and its end. -/
theorem Process.Took.of_call {process : Process Desk} {context : Context}
    {snapshot : Snapshot} (occupied : snapshot.chain ≠ [])
    (shelved : snapshot ∈ process.client.snapshots) {body : Act Desk Unit}
    (took : ∀ context' process', context'.thread = context.thread →
      Process.Took context.thread process' (body context' process').2) :
    Process.Took context.thread process (snapshot.run body context process).2 := by
  have start := Snapshot.inside_moved occupied context process
  have finish := Snapshot.run_moved occupied body context process
  obtain ⟨found, course, recorded⟩ := took _ (snapshot.inside context process).2
    (snapshot.inside_thread context process)
  rw [start.standing] at course
  refine ⟨_, finish.standing ▸ Course.called _ occupied shelved course, ?_⟩
  rw [finish.misuses, Snapshot.leftBy, recorded, start.misuses, List.append_nil,
    List.append_assoc]
  rfl

/-- Every run of a conduct is a course. -/
theorem Conduct.run_took (conduct : Conduct) (context : Context)
    (process : Process Desk) :
    Process.Took context.thread process (conduct.run context process).2 := by
  induction conduct generalizing context process with
  | rest => exact .refl _ process
  | andThen first second firstTook secondTook =>
      have front := firstTook context process
      simp only [Conduct.run, Act.bind_apply]
      cases run : first.run context process with
      | mk outcome next =>
          rw [run] at front
          cases outcome with
          | value value => exact front.trans (secondTook context next)
          | panic panic => exact front
  | start opening =>
      obtain ⟨outcome, moved⟩ := opening.start_moves context.thread
        (process.thread context.thread) context process rfl rfl
      simp only [Conduct.run, Act.bind_of_value outcome]
      exact .of_client moved (.started _ _ opening)
  | finish position =>
      simp only [Conduct.run, Act.bind_apply, Act.client]
      cases found : process.client.handles[position]? with
      | none => exact .refl _ process
      | some handle =>
          have moved := (handle.finish_moves context.thread
            (process.thread context.thread) context
            (Act.modifyClient (·.without position handle) context process).2 rfl rfl).2
          exact ⟨_, moved.standing ▸ Course.finished _ found, moved.misuses⟩
  | forget position =>
      simp only [Conduct.run, Act.bind_apply, Act.client]
      cases found : process.client.handles[position]? with
      | none => exact .refl _ process
      | some handle => exact .of_client (.refl _ process) (.forgotten _ found)
  | capture =>
      obtain ⟨outcome, moved⟩ := Snapshot.capture_moves context.thread
        (process.thread context.thread) context process rfl rfl
      simp only [Conduct.run, Act.bind_of_value outcome]
      exact .of_client moved (.captured _ _)
  | receive snapshot =>
      simp only [Conduct.run, Act.bind_apply, Act.context, Act.thread]
      by_cases known : snapshot.chain.Known context.thread
          (process.thread context.thread).opened
      · rw [if_pos known]
        exact .of_client (.refl _ process) (.received _ _ known)
      · rw [if_neg known]
        exact .refl _ process
  | call position body bodyTook =>
      simp only [Conduct.run, Act.bind_apply, Act.client]
      by_cases empty : (process.client.snapshot position).chain = []
      -- A call of an empty snapshot is nothing but its body.
      · rw [Snapshot.run_of_empty empty]
        exact bodyTook context process
      · exact .of_call empty (Desk.snapshot_mem empty) fun context' process' here =>
          here ▸ bodyTook context' process'
  | raise message => exact .refl _ process
  | attempt body bodyTook => exact bodyTook context process
  | ensuring body close bodyTook closeTook =>
      obtain ⟨place, here, run⟩ :=
        Act.ensuring_process body.run close.run context process
      simp only [Conduct.run, run]
      exact (bodyTook context process).trans (here ▸ closeTook place _)

end Ambient
