import Ambient.Proofs.Conduct
import Mathlib.Algebra.BigOperators.Group.List.Basic
import Mathlib.Algebra.Group.Pi.Basic
import Mathlib.Tactic.Abel

/-!
# Silent runs lose nothing

The end of a scope compares what the slot or the chain holds, not which scope
put it there.  Handles that installed the same captor may thus end out of order
without a report.  Still nothing is lost.  What a slot or the chain holds is a
place on a walk: opening a handle takes a step of the walk, and an end that
reports nothing takes the same step back.  Counting the steps at every place
leaves a balance that no silent course changes, in whatever order it ends its
handles.
-/

namespace Ambient

/-! ## Marks -/

/-- Something that a slot or the chain of a thread may hold. -/
inductive Mark where
  | slot (type : CaptorType) (captor : Option CaptorId)
  | link (chain : Chain)
deriving DecidableEq, Repr

namespace Mark

/-- Counting one mark once. -/
def once (mark : Mark) : Mark → Int :=
  Pi.single mark 1

/-- A step from one mark to another leaves the first and reaches the second. -/
def step (source target : Mark) : Mark → Int :=
  target.once - source.once

end Mark

namespace Thread

/-- The marks that a thread shows, each counted once. -/
def marks (thread : Thread) : Mark → Int
  | .slot type captor => if thread.current type = captor then 1 else 0
  | .link chain => if thread.chain = chain then 1 else 0

theorem marks_setCurrent {thread : Thread} (live : thread.live) (type : CaptorType)
    (captor : Option CaptorId) :
    (thread.setCurrent type captor).marks =
      thread.marks + Mark.step (.slot type (thread.current type)) (.slot type captor) := by
  funext mark
  cases mark with
  | link chain => simp [marks, Mark.step, Mark.once]
  | slot other held =>
      by_cases same : type = other
      · subst same
        simp [marks, Mark.step, Mark.once, Pi.single_apply, live, eq_comm]
      · simp [marks, Mark.step, Mark.once, same, Ne.symm same]

theorem marks_setChain {thread : Thread} (live : thread.live) (chain : Chain) :
    (thread.setChain chain).marks =
      thread.marks + Mark.step (.link thread.chain) (.link chain) := by
  funext mark
  cases mark with
  | slot type captor => simp [marks, Mark.step, Mark.once]
  | link held => simp [marks, Mark.step, Mark.once, Pi.single_apply, live, eq_comm]

/-- The marks say everything about the slots and the chain. -/
theorem eq_of_marks {first second : Thread} (same : first.marks = second.marks) :
    first.chain = second.chain ∧ ∀ type, first.current type = second.current type := by
  constructor
  · simpa [marks] using congrFun same (.link second.chain)
  · intro type
    simpa [marks] using congrFun same (.slot type (second.current type))

end Thread

/-! ## Steps of scopes -/

namespace Scope

def flow (scope : Scope) : Mark → Int :=
  Mark.step (.slot scope.type scope.previous) (.slot scope.type scope.installed)

theorem marks_closed {scope : Scope} {thread : Thread} (live : thread.live)
    (silent : scope.faults thread = []) :
    (scope.closed thread).marks = thread.marks - scope.flow := by
  rw [closed, Thread.marks_setCurrent live, faults_eq_nil.mp silent, flow, Mark.step, Mark.step]
  abel

def flowAll (scopes : List Scope) : Mark → Int :=
  (scopes.map flow).sum

theorem marks_closedAll {scopes : List Scope} {thread : Thread} (live : thread.live)
    (silent : faultsAll scopes thread = []) :
    (closedAll scopes thread).marks = thread.marks - flowAll scopes := by
  induction scopes generalizing thread with
  | nil => simp [closedAll, flowAll]
  | cons scope rest ih =>
      rcases List.append_eq_nil_iff.mp silent with ⟨first, others⟩
      have alive : (scope.closed thread).live := by simpa [closed] using live
      have step : closedAll (scope :: rest) thread = closedAll rest (scope.closed thread) := rfl
      rw [step, ih alive others, marks_closed live first, flowAll, flowAll, List.map_cons,
        List.sum_cons]
      abel

end Scope

namespace CrosserScope

def chainFlow (scope : CrosserScope) : Mark → Int :=
  Mark.step (.link scope.outer) (.link scope.node)

theorem marks_setChain_outer {scope : CrosserScope} {thread : Thread}
    (live : thread.live) (silent : scope.chainFaults thread = []) :
    (thread.setChain scope.outer).marks = thread.marks - scope.chainFlow := by
  rw [Thread.marks_setChain live, chainFaults_eq_nil.mp silent, chainFlow, Mark.step, Mark.step]
  abel

end CrosserScope

namespace Handle

/-- The steps that the start of a handle takes. -/
def flow : Handle → Mark → Int
  | .slot scope => scope.flow
  | .crosser scope => scope.chainFlow + scope.slot.flow

theorem marks_entered (opening : Opening) (id : ThreadId) {thread : Thread}
    (live : thread.live) :
    (opening.entered id thread).marks =
      thread.marks + (opening.handle id thread).flow := by
  cases opening with
  | capture type captor => exact Thread.marks_setCurrent live type _
  | crossing bridge => exact Thread.marks_setCurrent live bridge.type _
  | crosser type captor =>
      let scope := CrosserScope.ofThread id thread type captor
      let counted : Thread := { thread with opened := thread.opened + 1 }
      have alive : counted.live := live
      have linked : (counted.setChain scope.node).marks = thread.marks + scope.chainFlow :=
        Thread.marks_setChain alive scope.node
      have filled := Thread.marks_setCurrent (counted.live_setChain scope.node ▸ alive)
        type (some captor)
      rw [linked, Thread.current_setChain, add_assoc] at filled
      exact filled

theorem marks_closed {handle : Handle} {thread : Thread} (live : thread.live)
    (silent : handle.faults thread = []) :
    (handle.closed thread).marks = thread.marks - handle.flow := by
  cases handle with
  | slot scope => exact scope.marks_closed live silent
  | crosser scope =>
      rcases List.append_eq_nil_iff.mp silent with ⟨link, slot⟩
      have alive : (thread.setChain scope.outer).live := by simpa using live
      have still : scope.slot.faults (thread.setChain scope.outer) = [] := by
        rw [Scope.faults, Thread.current_setChain]
        exact slot
      rw [closed, Scope.marks_closed alive still,
        CrosserScope.marks_setChain_outer live link, flow]
      abel

end Handle

namespace Snapshot

theorem marks_fill {thread : Thread} (live : thread.live) (crossers : List Crosser) :
    (thread.fill (fillings crossers)).marks =
      thread.marks + Scope.flowAll (installed crossers thread) := by
  induction crossers generalizing thread with
  | nil => simp [fillings, installed, Scope.flowAll]
  | cons crosser rest ih =>
      have alive : (thread.setCurrent crosser.type (some crosser.captor)).live := by
        simpa using live
      have others := ih alive
      rw [Thread.marks_setCurrent live, add_assoc] at others
      exact others

/-- The steps that the start of a call takes. -/
def flow (snapshot : Snapshot) (before : Thread) : Mark → Int :=
  Scope.flowAll (snapshot.guards before) +
    Mark.step (.link before.chain) (.link snapshot.chain)

theorem marks_entered (snapshot : Snapshot) {thread : Thread} (live : thread.live) :
    (snapshot.entered thread).marks = thread.marks + snapshot.flow thread := by
  have alive : (thread.fill (fillings snapshot.entries)).live := by simpa using live
  rw [entered, Thread.marks_setChain alive, marks_fill live, Thread.chain_fill, add_assoc]
  rfl

theorem marks_closed {snapshot : Snapshot} {before thread : Thread}
    (live : thread.live) (silent : snapshot.faults before thread = []) :
    (snapshot.closed before thread).marks = thread.marks - snapshot.flow before := by
  obtain ⟨-, slots⟩ := List.append_eq_nil_iff.mp silent
  have alive : (thread.setChain before.chain).live := by simpa using live
  rw [closed, Scope.marks_closedAll alive slots, Thread.marks_setChain live,
    chain_of_silent silent, flow, Mark.step, Mark.step]
  abel

end Snapshot

/-! ## The balance of a course -/

namespace Desk

/-- The steps that have not been taken back. -/
def flow (desk : Desk) : Mark → Int :=
  (desk.unended.map Handle.flow).sum

theorem flow_eq_of_perm {first second : Desk}
    (same : first.unended.Perm second.unended) : first.flow = second.flow :=
  (same.map Handle.flow).sum_eq

theorem flow_keep (desk : Desk) (handle : Handle) :
    (desk.keep handle).flow = handle.flow + desk.flow := by
  simp [flow, unended, keep]

variable {desk : Desk} {position : Nat} {handle : Handle}

theorem handles_perm (found : desk.handles[position]? = some handle) :
    (handle :: desk.handles.eraseIdx position).Perm desk.handles := by
  rcases List.getElem?_eq_some_iff.mp found with ⟨bound, rfl⟩
  exact List.getElem_cons_eraseIdx_perm bound

theorem flow_without (found : desk.handles[position]? = some handle) :
    desk.flow = handle.flow + (desk.without position handle).flow := by
  have same : (handle :: (desk.without position handle).unended).Perm desk.unended :=
    (handles_perm found).append_right desk.forgotten
  rw [flow, flow, ← (same.map Handle.flow).sum_eq, List.map_cons, List.sum_cons]

theorem flow_forget (found : desk.handles[position]? = some handle) :
    (desk.forget position handle).flow = desk.flow := by
  apply flow_eq_of_perm
  exact List.perm_middle.trans ((handles_perm found).append_right desk.forgotten)

end Desk

/-- What a thread shows beyond the steps that are to be taken back. -/
def Standing.balance (standing : Standing) : Mark → Int :=
  standing.thread.marks - standing.desk.flow

theorem Course.balance {id : ThreadId} {before after : Standing} {found : List Misuse}
    (course : Course id before found after) (live : before.thread.live)
    (silent : found = []) : after.balance = before.balance := by
  induction course with
  | rest | captured | received => rfl
  | andThen first _ front back =>
      rcases List.append_eq_nil_iff.mp silent with ⟨quiet, still⟩
      exact (back (first.live.trans live) still).trans (front live quiet)
  | started thread desk opening =>
      simp only [Standing.balance, Handle.marks_entered opening id live, Desk.flow_keep]
      abel
  | finished thread found =>
      simp only [Standing.balance, Handle.marks_closed live silent, Desk.flow_without found]
      abel
  | forgotten thread found => simp only [Standing.balance, Desk.flow_forget found]
  | @called thread desk snapshot _ _ _ left body ih =>
      -- The steps that the call takes and takes back cancel out, and so do those
      -- of its body against the handles that the body leaves unended.
      rcases List.append_eq_nil_iff.mp silent with ⟨quiet, still⟩
      have entered : (snapshot.entered thread).live := by simpa using live
      have inside := ih entered quiet
      simp only [Standing.balance, snapshot.marks_entered live] at inside
      simp only [Standing.balance, Snapshot.marks_closed (body.live.trans entered) still]
      rw [sub_right_comm, inside]
      abel

/-- A run that ends the handles it opens and no others, so that the same ones
are open after it as before, and that has no misuse recorded leaves every slot
and the chain as they were.  The order of the ends does not matter. -/
theorem Conduct.silent_run_restores (conduct : Conduct) (context : Context)
    (process : Process Desk) :
    let last := (conduct.run context process).2
    last.client.unended.Perm process.client.unended →
      last.misuses = process.misuses →
        (last.thread context.thread).chain = (process.thread context.thread).chain ∧
          ∀ type, (last.thread context.thread).current type =
            (process.thread context.thread).current type := by
  intro last complete silent
  have course := (conduct.run_took context process).silent_course silent
  cases live : (process.thread context.thread).live with
  | true =>
      have balance := course.balance live rfl
      rw [Standing.balance, Standing.balance] at balance
      have unmoved : last.client.flow = process.client.flow := Desk.flow_eq_of_perm complete
      apply Thread.eq_of_marks
      exact sub_left_injective (unmoved ▸ balance)
  | false =>
      have dead : (last.thread context.thread).live = false := course.live.trans live
      simp [Thread.chain, Thread.current, live, dead]

/-- Four handles, of which two install the same captor and the two others hide
it again, are ended in another order than they should, inside a call. -/
theorem Conduct.silent_run_restores_disorder :
    let type : CaptorType := ⟨"Log"⟩
    let shown : Conduct := .start (.capture type "shown")
    let hidden : Conduct := .start (.crossing ⟨type, none⟩)
    let opening : Conduct := (shown.andThen hidden).andThen (shown.andThen hidden)
    let ending : Conduct :=
      ((finish 2).andThen (finish 1)).andThen ((finish 0).andThen (finish 0))
    let conduct : Conduct :=
      (receive ⟨[⟨⟨.worker "maker", 0⟩, ⟨"Trace"⟩, "made"⟩]⟩).andThen
        (call 0 (opening.andThen ending))
    let last := (conduct.run ⟨.release, .main, false, []⟩ (.start .empty)).2
    last.client.handles = [] ∧ last.misuses = [] ∧ (last.thread .main).chain = [] ∧
      ∀ type, (last.thread .main).current type = none := by
  intro type shown hidden opening ending conduct last
  have complete : last.client.unended.Perm [] := by decide +kernel
  have silent : last.misuses = [] := by decide +kernel
  obtain ⟨chain, slots⟩ := silent_run_restores conduct ⟨.release, .main, false, []⟩
    (.start .empty) complete silent
  exact ⟨by decide +kernel, silent, chain, slots⟩

end Ambient
