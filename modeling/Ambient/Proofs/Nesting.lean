import Ambient.Proofs.Conduct

/-!
# Silent calls are nested

Inside a call the chain of the thread is that of the snapshot, so a crosser from
outside may be ended there without failing its own check.  Only the end of the
call, or of a call around it, finds the chain changed.  The argument looks back
from the end of a course that reports nothing.  If some chain of old crossers is
at the bottom then, it was there from the start: no crosser that the course
opened is on it, an end takes away nothing but the innermost crosser, and a call
inside gives back the chain that it found.  What happened above the bottom has
been opened and ended like a stack.
-/

namespace Ambient

/-! ## Stacks of crossers -/

namespace Event

/-- The crossers that are open after some events, latest first, as long as each
crosser that is ended is the latest open one. -/
def replay : List Event → List Crosser → Option (List Crosser)
  | [], pending => some pending
  | .opened crosser :: rest, pending => replay rest (crosser :: pending)
  | .ended _ :: _, [] => none
  | .ended crosser :: rest, latest :: earlier =>
      if latest = crosser then replay rest earlier else none

theorem replay_append (first second : List Event) (pending : List Crosser) :
    replay (first ++ second) pending = (replay first pending).bind (replay second) := by
  induction first generalizing pending with
  | nil => rfl
  | cons event rest ih =>
      cases event with
      | opened crosser => exact ih _
      | ended crosser =>
          cases pending with
          | nil => rfl
          | cons latest earlier =>
              by_cases same : latest = crosser
              · simpa [replay, same] using ih earlier
              · simp [replay, same]

/-- What is open below does not matter. -/
theorem replay_below {events : List Event} {pending left : List Crosser}
    (played : replay events pending = some left) (below : List Crosser) :
    replay events (pending ++ below) = some (left ++ below) := by
  induction events generalizing pending with
  | nil =>
      obtain rfl : pending = left := Option.some.inj played
      rfl
  | cons event rest ih =>
      cases event with
      | opened crosser => exact ih played
      | ended crosser =>
          cases pending with
          | nil => simp [replay] at played
          | cons latest earlier =>
              by_cases same : latest = crosser
              · simp only [replay, same, if_true] at played
                simpa [replay, same] using ih played
              · simp [replay, same] at played

/-- A crosser that was open or is opened is left open or ended. -/
theorem replay_mem {events : List Event} {pending left : List Crosser}
    (played : replay events pending = some left) (crosser : Crosser) :
    crosser ∈ pending ∨ .opened crosser ∈ events ↔
      crosser ∈ left ∨ .ended crosser ∈ events := by
  induction events generalizing pending with
  | nil =>
      obtain rfl : pending = left := Option.some.inj played
      simp
  | cons event rest ih =>
      cases event with
      | opened first =>
          have others := ih played
          rw [List.mem_cons] at others
          simp only [List.mem_cons, Event.opened.injEq, reduceCtorEq, false_or, ← others]
          tauto
      | ended first =>
          cases pending with
          | nil => simp [replay] at played
          | cons latest earlier =>
              by_cases same : latest = first
              · simp only [replay, same, if_true] at played
                have others := ih played
                simp only [List.mem_cons, same, Event.ended.injEq, reduceCtorEq, false_or]
                tauto
              · simp [replay, same] at played

end Event

/-! ## Threads with known crossers -/

namespace Chain

variable {id : ThreadId} {opened more : Nat} {chain : Chain}

theorem known_nil (id : ThreadId) (opened : Nat) : Known id opened [] := by
  simp [Known]

theorem Known.mono (known : Known id opened chain) (later : opened ≤ more) :
    Known id more chain := by
  intro crosser member own
  have bound := known crosser member own
  omega

theorem Known.setChain {thread : Thread} (known : Known id opened chain) :
    (thread.setChain chain).chain.Known id opened := by
  rw [Thread.chain_setChain]
  split
  · exact known
  · exact known_nil id opened

end Chain

namespace Handle

/-- The chain around a crosser. -/
def outer : Handle → Chain
  | .slot _ => []
  | .crosser scope => scope.outer

theorem known_closed {id : ThreadId} {opened : Nat} {handle : Handle} {thread : Thread}
    (around : handle.outer.Known id opened) (known : thread.chain.Known id opened) :
    (handle.closed thread).chain.Known id opened := by
  cases handle with
  | slot scope => simpa [closed, Scope.closed] using known
  | crosser scope =>
      rw [closed, Scope.closed, Thread.chain_setCurrent]
      exact around.setChain

end Handle

namespace Opening

variable {id : ThreadId} {thread : Thread}

theorem known_entered (opening : Opening)
    (known : thread.chain.Known id thread.opened) :
    (opening.entered id thread).chain.Known id (opening.entered id thread).opened := by
  cases opening with
  | capture type captor => simpa [entered] using known
  | crossing bridge => simpa [entered] using known
  | crosser type captor =>
      have grown : (CrosserScope.ofThread id thread type captor).node.Known id
          (thread.opened + 1) := by
        intro crosser member own
        rcases List.mem_cons.mp member with rfl | old
        · exact Nat.lt_succ_self _
        · exact Nat.lt_succ_of_lt (known crosser old own)
      simp only [entered, CrosserScope.entered, Thread.chain_setCurrent,
        Thread.opened_setCurrent, Thread.opened_setChain]
      exact grown.setChain

theorem known_outer (opening : Opening)
    (known : thread.chain.Known id thread.opened) :
    (opening.handle id thread).outer.Known id thread.opened := by
  cases opening with
  | capture => exact Chain.known_nil id _
  | crossing => exact Chain.known_nil id _
  | crosser => exact known

end Opening

/-- No crosser within reach of a thread is one that it has still to open. -/
structure Standing.Sound (id : ThreadId) (standing : Standing) : Prop where
  chain : standing.thread.chain.Known id standing.thread.opened
  handles : ∀ handle ∈ standing.desk.handles,
    handle.outer.Known id standing.thread.opened
  snapshots : ∀ snapshot ∈ standing.desk.snapshots,
    snapshot.chain.Known id standing.thread.opened

/-- The body of a call starts as sound as the call does. -/
theorem Standing.Sound.inside {id : ThreadId} {thread : Thread} {desk : Desk}
    {snapshot : Snapshot} (sound : Sound id ⟨thread, desk⟩)
    (shelved : snapshot ∈ desk.snapshots) : Sound id ⟨snapshot.entered thread, desk⟩ := by
  have known := sound.snapshots snapshot shelved
  constructor <;> simp only [Snapshot.opened_entered]
  · exact known.setChain
  · exact sound.handles
  · exact sound.snapshots

theorem Process.start_sound (id : ThreadId) :
    ((Process.start .empty).standing id).Sound id where
  chain := Chain.known_nil id _
  handles := by simp [Process.standing, Process.start, Desk.empty]
  snapshots := by simp [Process.standing, Process.start, Desk.empty]

namespace Course

variable {id : ThreadId} {before after : Standing} {found : List Misuse}

theorem opened_le (course : Course id before found after) :
    before.thread.opened ≤ after.thread.opened := by
  induction course with
  | rest | forgotten | captured | received => exact Nat.le_refl _
  | andThen _ _ first second => exact Nat.le_trans first second
  | started thread desk opening => exact opening.opened_le_entered id thread
  | finished thread found => exact Nat.le_of_eq (Handle.opened_closed _ thread).symm
  | called thread occupied shelved body ih =>
      rw [Snapshot.opened_closed]
      simpa using ih

/-- No course gets hold of a crosser that is still to be opened. -/
theorem sound (course : Course id before found after) (start : before.Sound id) :
    after.Sound id := by
  induction course with
  | rest => exact start
  | andThen _ _ first second => exact second (first start)
  | started thread desk opening =>
      have later := opening.opened_le_entered id thread
      refine ⟨opening.known_entered start.chain, fun handle member => ?_,
        fun snapshot member => (start.snapshots snapshot member).mono later⟩
      rcases List.mem_cons.mp member with rfl | old
      · exact (opening.known_outer start.chain).mono later
      · exact (start.handles handle old).mono later
  | finished thread found =>
      have around := start.handles _ (List.mem_of_getElem? found)
      refine ⟨?_, fun handle member => ?_, fun snapshot member => ?_⟩ <;>
        rw [Handle.opened_closed]
      · exact Handle.known_closed around start.chain
      · exact start.handles handle (List.mem_of_mem_eraseIdx member)
      · exact start.snapshots snapshot member
  | forgotten thread found =>
      exact ⟨start.chain, fun handle member =>
        start.handles handle (List.mem_of_mem_eraseIdx member), start.snapshots⟩
  | captured thread desk =>
      refine ⟨start.chain, start.handles, fun snapshot member => ?_⟩
      rcases List.mem_cons.mp member with rfl | old
      · exact start.chain
      · exact start.snapshots snapshot old
  | received thread desk known =>
      refine ⟨start.chain, start.handles, fun snapshot member => ?_⟩
      rcases List.mem_cons.mp member with rfl | old
      · exact known
      · exact start.snapshots snapshot old
  | @called thread desk snapshot occupied shelved _ left body ih =>
      have later : thread.opened ≤ left.thread.opened := by simpa using body.opened_le
      obtain ⟨-, handles, snapshots⟩ := ih (start.inside shelved)
      constructor <;> simp only [Snapshot.opened_closed]
      · rw [Snapshot.chain_closed]
        split
        · exact start.chain.mono later
        · exact Chain.known_nil id _
      · exact handles
      · exact snapshots

end Course

/-- Every state that conducts lead to is sound. -/
theorem Conduct.run_sound (conduct : Conduct) (context : Context) (process : Process Desk)
    (start : (process.standing context.thread).Sound context.thread) :
    ((conduct.run context process).2.standing context.thread).Sound context.thread := by
  obtain ⟨found, course, -⟩ := conduct.run_took context process
  exact course.sound start

/-! ## Looking back from the end -/

namespace Event

/-- Events account for a change of a chain above any known crossers: those that
are at the bottom after the change were there before it, and the events lead
from what was above them to what is above them now. -/
def Account (id : ThreadId) (opened : Nat) (before : Chain) (events : List Event)
    (after : Chain) : Prop :=
  ∀ base pending, Chain.Known id opened base → after = pending ++ base →
    ∃ earlier, before = earlier ++ base ∧ replay events earlier = some pending

namespace Account

variable {id : ThreadId} {opened more : Nat} {before middle after : Chain}
  {events others : List Event}

theorem refl (id : ThreadId) (opened : Nat) (chain : Chain) :
    Account id opened chain [] chain :=
  fun _ pending _ split => ⟨pending, split, rfl⟩

theorem trans (first : Account id opened before events middle)
    (second : Account id more middle others after) (later : opened ≤ more) :
    Account id opened before (events ++ others) after := by
  intro base pending known split
  obtain ⟨between, split, back⟩ := second base pending (known.mono later) split
  obtain ⟨earlier, split, front⟩ := first base between known split
  exact ⟨earlier, split, by rw [replay_append, front, Option.bind_some, back]⟩

/-- A crosser that is opened only now is not at the bottom. -/
theorem opening (crosser : Crosser) (own : crosser.id.thread = id)
    (fresh : opened ≤ crosser.id.index) (outer : Chain) :
    Account id opened outer [.opened crosser] (crosser :: outer) := by
  intro base pending known split
  cases pending with
  | nil =>
      -- Otherwise the crosser would be a known one, and its number would be too high.
      rw [List.nil_append] at split
      have bound := known crosser (split ▸ List.mem_cons_self) own
      omega
  | cons latest earlier =>
      rcases List.cons.inj split with ⟨rfl, rfl⟩
      exact ⟨earlier, rfl, rfl⟩

theorem ending (id : ThreadId) (opened : Nat) (crosser : Crosser) (outer : Chain) :
    Account id opened (crosser :: outer) [.ended crosser] outer := by
  intro base pending _ split
  exact ⟨crosser :: pending, by rw [split, List.cons_append], by simp [replay]⟩

theorem of_nested (nested : replay events [] = some []) (id : ThreadId) (opened : Nat)
    (chain : Chain) : Account id opened chain events chain :=
  fun _ pending _ split => ⟨pending, split, replay_below nested pending⟩

/-- With nothing but known crossers on it, a chain can only come back by events
that are nested. -/
theorem nested {chain : Chain} (account : Account id opened chain events chain)
    (known : chain.Known id opened) : replay events [] = some [] := by
  obtain ⟨earlier, split, played⟩ := account chain [] known rfl
  have none : earlier = [] := List.self_eq_append_left.mp split
  rwa [none] at played

end Account

end Event

theorem Opening.accounts {id : ThreadId} {thread : Thread} (opening : Opening)
    (live : thread.live) :
    Event.Account id thread.opened thread.chain
      ((opening.handle id thread).crosser?.toList.map .opened)
      (opening.entered id thread).chain := by
  cases opening with
  | capture type captor =>
      simpa [handle, entered, Handle.crosser?] using Event.Account.refl id _ thread.chain
  | crossing bridge =>
      simpa [handle, entered, Handle.crosser?] using Event.Account.refl id _ thread.chain
  | crosser type captor =>
      let scope := CrosserScope.ofThread id thread type captor
      have grown : (scope.entered thread).chain = scope.node := by
        simp [CrosserScope.entered, live]
      have account : Event.Account id thread.opened thread.chain
          [.opened scope.crosser] scope.node :=
        .opening scope.crosser rfl (Nat.le_refl _) thread.chain
      rw [entered, grown]
      exact account

/-- Whether it was the chain that was found out of order, and not a slot. -/
def Misuse.ofChain : Misuse → Bool
  | .crosser _ => true
  | .call => true
  | _ => false

theorem Handle.accounts {id : ThreadId} {thread : Thread} {handle : Handle}
    (live : thread.live) (linked : ∀ misuse ∈ handle.faults thread, misuse.ofChain = false) :
    Event.Account id thread.opened thread.chain
      (handle.crosser?.toList.map .ended) (handle.closed thread).chain := by
  cases handle with
  | slot scope =>
      simpa [closed, Scope.closed, crosser?] using Event.Account.refl id _ thread.chain
  | crosser scope =>
      have link : thread.chain = scope.node := by
        by_contra apart
        have blamed : Misuse.crosser scope.crosser.type ∈ faults (.crosser scope) thread := by
          simp [faults, CrosserScope.chainFaults, apart]
        exact Bool.false_ne_true (linked _ blamed).symm
      have shrunk : (closed (.crosser scope) thread).chain = scope.outer := by
        simp [closed, Scope.closed, live]
      rw [link, shrunk]
      exact .ending id _ scope.crosser scope.outer

/-- A call that finds nothing but slots out of order finds its own chain. -/
theorem Snapshot.chain_of_linked {snapshot : Snapshot} {before thread : Thread}
    (linked : ∀ misuse ∈ snapshot.faults before thread, misuse.ofChain = false) :
    thread.chain = snapshot.chain := by
  by_contra apart
  have blamed : Delegation.misuse thread.chain ∈ snapshot.faults before thread := by
    simp [faults, Delegation.faults, delegation, apart]
  have ofChain : (Delegation.misuse thread.chain).ofChain = true := by
    cases thread.chain <;> rfl
  rw [linked _ blamed] at ofChain
  contradiction

/-- What a course does to the chain is accounted for by the crossers that it opens
and ends, as long as it never finds the chain out of order. -/
theorem Course.linked_accounts {id : ThreadId} {before after : Standing} {found : List Misuse}
    (course : Course id before found after) (sound : before.Sound id)
    (live : before.thread.live) (linked : ∀ misuse ∈ found, misuse.ofChain = false) :
    ∃ events, after.desk.history = before.desk.history ++ events ∧
      Event.Account id before.thread.opened before.thread.chain events
        after.thread.chain := by
  induction course with
  | rest | forgotten | captured | received =>
      exact ⟨[], (List.append_nil _).symm, .refl id _ _⟩
  | andThen first second front back =>
      rcases List.forall_mem_append.mp linked with ⟨early, late⟩
      obtain ⟨events, recorded, account⟩ := front sound live early
      obtain ⟨others, recorded', account'⟩ :=
        back (first.sound sound) (first.live.trans live) late
      refine ⟨events ++ others, ?_, account.trans account' first.opened_le⟩
      rw [recorded', recorded, List.append_assoc]
  | started thread desk opening => exact ⟨_, rfl, opening.accounts live⟩
  | finished thread found => exact ⟨_, rfl, Handle.accounts live linked⟩
  | @called thread desk snapshot occupied shelved _ left body ih =>
      -- The body ends on the chain of the snapshot, as it started, so its events
      -- are nested and account for the chain around the call as well.
      rcases List.forall_mem_append.mp linked with ⟨during, closing⟩
      have alive : (snapshot.entered thread).live := (snapshot.live_entered thread).trans live
      obtain ⟨events, recorded, account⟩ := ih (sound.inside shelved) alive during
      have shown : (snapshot.entered thread).chain = snapshot.chain :=
        (snapshot.chain_entered thread).trans (if_pos live)
      rw [shown, Snapshot.chain_of_linked closing, Snapshot.opened_entered] at account
      have nested := account.nested (sound.snapshots snapshot shelved)
      refine ⟨events, recorded, ?_⟩
      have given : (snapshot.closed thread left.thread).chain = thread.chain := by
        rw [Snapshot.chain_closed, if_pos (body.live.trans alive)]
      rw [given]
      exact .of_nested nested id _ thread.chain

theorem Course.accounts {id : ThreadId} {before after : Standing} {found : List Misuse}
    (course : Course id before found after) (sound : before.Sound id)
    (live : before.thread.live) (silent : found = []) :
    ∃ events, after.desk.history = before.desk.history ++ events ∧
      Event.Account id before.thread.opened before.thread.chain events
        after.thread.chain :=
  course.linked_accounts sound live (by simp [silent])

/-- The crossers that a course opens are numbered on from those opened before, and each
of them is opened once. -/
theorem Course.numbering {id : ThreadId} {before after : Standing} {found : List Misuse}
    (course : Course id before found after) :
    ∃ events, after.desk.history = before.desk.history ++ events ∧
      (∀ crosser, .opened crosser ∈ events → crosser.id.thread = id ∧
        before.thread.opened ≤ crosser.id.index ∧ crosser.id.index < after.thread.opened) ∧
      ∀ crosser, events.count (.opened crosser) ≤ 1 := by
  induction course with
  | rest | forgotten | captured | received =>
      exact ⟨[], (List.append_nil _).symm, by simp, by simp⟩
  | andThen first second front back =>
      rcases front with ⟨events, recorded, fresh, once⟩
      rcases back with ⟨others, recorded', fresh', once'⟩
      have earlier := first.opened_le
      have later := second.opened_le
      refine ⟨events ++ others, ?_, fun crosser member => ?_, fun crosser => ?_⟩
      · rw [recorded', recorded, List.append_assoc]
      · rcases List.mem_append.mp member with early | late
        · rcases fresh crosser early with ⟨own, least, most⟩
          exact ⟨own, least, by omega⟩
        · rcases fresh' crosser late with ⟨own, least, most⟩
          exact ⟨own, by omega, most⟩
      · rw [List.count_append]
        by_cases early : .opened crosser ∈ events
        · have absent : .opened crosser ∉ others := fun late => by
            have bound := (fresh crosser early).2.2
            have bound' := (fresh' crosser late).2.1
            omega
          rw [List.count_eq_zero_of_not_mem absent]
          exact once crosser
        · rw [List.count_eq_zero_of_not_mem early, Nat.zero_add]
          exact once' crosser
  | started thread desk opening =>
      refine ⟨_, rfl, fun crosser member => ?_, fun crosser => ?_⟩
      · cases opening with
        | capture | crossing => simp [Opening.handle, Handle.crosser?] at member
        | crosser type captor =>
            obtain rfl : crosser = (CrosserScope.ofThread id thread type captor).crosser := by
              simpa [Opening.handle, Handle.crosser?] using member
            refine ⟨rfl, Nat.le_refl _, ?_⟩
            simp [Opening.entered, CrosserScope.entered, CrosserScope.ofThread]
      · cases opening with
        | capture | crossing => exact Nat.zero_le 1
        | crosser type captor => exact List.count_le_length
  | finished thread found =>
      refine ⟨_, rfl, by simp, fun crosser => ?_⟩
      rw [List.count_eq_zero_of_not_mem (by simp)]
      exact Nat.zero_le 1
  | called thread occupied shelved body ih =>
      simpa only [Snapshot.opened_entered, Snapshot.opened_closed] using ih

theorem Course.numbered {id : ThreadId} {before after : Standing} {found : List Misuse}
    (course : Course id before found after) :
    ∃ events, after.desk.history = before.desk.history ++ events ∧
      ∀ crosser, .opened crosser ∈ events →
        crosser.id.thread = id ∧ before.thread.opened ≤ crosser.id.index := by
  obtain ⟨events, recorded, fresh, -⟩ := course.numbering
  refine ⟨events, recorded, fun crosser member => ?_⟩
  rcases fresh crosser member with ⟨own, least, -⟩
  exact ⟨own, least⟩

/-- A call that has no misuse recorded is nested.  The crossers that are opened
and ended during it come and go like a stack that is empty in the end, so all
those opened are ended in the reverse order, and none opened before is ended.
The state before the call has to be sound, as all are that conducts lead to. -/
theorem Conduct.silent_call_nested (body : Conduct) {snapshot : Snapshot}
    (context : Context) (process : Process Desk)
    (live : (process.thread context.thread).live)
    (sound : (process.standing context.thread).Sound context.thread)
    (shelved : snapshot ∈ process.client.snapshots) (occupied : snapshot.isEmpty = false)
    {outcome : Outcome Unit} {last : Process Desk}
    (run : snapshot.run body.run context process = (outcome, last))
    (silent : last.misuses = process.misuses) :
    ∃ events, last.client.history = process.client.history ++ events ∧
      Event.replay events [] = some [] ∧
      (∀ crosser, .opened crosser ∈ events ↔ .ended crosser ∈ events) ∧
      ∀ crosser, .ended crosser ∈ events →
        crosser.id.thread = context.thread ∧
          (process.thread context.thread).opened ≤ crosser.id.index := by
  obtain rfl : (snapshot.run body.run context process).2 = last := by rw [run]
  have occupied : snapshot.chain ≠ [] := by simpa [Snapshot.isEmpty] using occupied
  have took : Process.Took context.thread process _ :=
    .of_call occupied shelved fun context' process' here =>
      here ▸ body.run_took context' process'
  have course := took.silent_course silent
  obtain ⟨events, recorded, account⟩ := course.accounts sound live rfl
  have restored : ((snapshot.run body.run context process).2.thread context.thread).chain =
      (process.thread context.thread).chain := by
    have closing := (Snapshot.run_moved occupied body.run context process).own
    have alive := course.live.trans live
    rw [Process.standing, closing, Snapshot.live_closed] at alive
    rw [closing, Snapshot.chain_closed, if_pos alive]
  have nested : Event.replay events [] = some [] :=
    Event.Account.nested (restored ▸ account) sound.chain
  have paired : ∀ crosser, .opened crosser ∈ events ↔ .ended crosser ∈ events := by
    intro crosser
    simpa using Event.replay_mem nested crosser
  obtain ⟨others, recorded', fresh⟩ := course.numbered
  obtain rfl : events = others := List.append_cancel_left (recorded.symm.trans recorded')
  exact ⟨events, recorded, nested, paired, fun crosser ended =>
    fresh crosser ((paired crosser).mpr ended)⟩

/-- The snapshot is that of a crosser still open, and the body calls it again
between opening a crosser and ending it. -/
theorem Conduct.silent_call_nested_in_open_crosser :
    let crosser : Crosser := ⟨⟨.main, 0⟩, ⟨"Log"⟩, "log"⟩
    let snapshot : Snapshot := ⟨[crosser]⟩
    let context : Context := ⟨.debug, .main, false, []⟩
    let process : Process Desk :=
      (Process.start ⟨[], [], [snapshot], []⟩).setThread .main ⟨.empty, [crosser], 1, true⟩
    let opening : Conduct := .start (.crosser ⟨"Log"⟩ "log")
    let inner : Conduct := call 0 (opening.andThen (finish 0))
    let body : Conduct := opening.andThen (inner.andThen (finish 0))
    let last := (snapshot.run body.run context process).2
    last.misuses = process.misuses ∧ last.client.history.length = 4 ∧
      ∃ events, last.client.history = process.client.history ++ events ∧
        Event.replay events [] = some [] := by
  intro crosser snapshot context process opening inner body last
  have live : (process.thread context.thread).live := by decide
  have sound : (process.standing context.thread).Sound context.thread :=
    ⟨by decide, by decide, by decide⟩
  have shelved : snapshot ∈ process.client.snapshots := by decide
  have silent : last.misuses = process.misuses := by decide +kernel
  have run : snapshot.run body.run context process = (_, last) :=
    (Prod.eta _).symm
  obtain ⟨events, recorded, nested, -⟩ :=
    silent_call_nested body context process live sound shelved rfl run silent
  exact ⟨silent, by decide +kernel, events, recorded, nested⟩

end Ambient
