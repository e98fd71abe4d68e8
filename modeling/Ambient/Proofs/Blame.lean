import Ambient.Proofs.Nesting

/-!
# Whom the end of a call blames

When the chain is not that of its snapshot, the end of a call blames whatever crosser
is the innermost one by then.  This is one that was opened during the call and is
still open, as long as the chain has only grown.  But the body can also end crossers
that the snapshot has and that were opened before the call.  Their own checks pass,
since inside the call they are innermost.  Once nothing that the call opened is left
above them, the crosser around those is blamed, which nobody has misused.
-/

namespace Ambient

namespace Event

/-- Of what was open the upper part has been ended, and what is open above the rest
was opened on the way. -/
theorem replay_split {events : List Event} {pending left : List Crosser}
    (played : replay events pending = some left) :
    ∃ gone kept added, pending = gone ++ kept ∧ left = added ++ kept ∧
      (∀ crosser ∈ gone, .ended crosser ∈ events) ∧
      ∀ crosser ∈ added, .opened crosser ∈ events := by
  induction events generalizing pending with
  | nil =>
      obtain rfl : pending = left := Option.some.inj played
      exact ⟨[], pending, [], rfl, rfl, by simp, by simp⟩
  | cons event rest ih =>
      cases event with
      | opened first =>
          obtain ⟨gone, kept, added, before, after, ended, opened⟩ := ih played
          cases gone with
          | nil =>
              -- The crosser opened here is still there.
              subst before
              refine ⟨[], pending, added ++ [first], rfl, ?_, by simp, fun crosser member => ?_⟩
              · rw [after, List.append_assoc, List.singleton_append]
              · rcases List.mem_append.mp member with later | here
                · exact List.mem_cons_of_mem _ (opened crosser later)
                · rw [List.mem_singleton.mp here]
                  exact List.mem_cons_self
          | cons top gone =>
              rcases List.cons.inj before with ⟨rfl, split⟩
              refine ⟨gone, kept, added, split, after, fun crosser member => ?_,
                fun crosser member => ?_⟩
              · exact List.mem_cons_of_mem _ (ended crosser (List.mem_cons_of_mem _ member))
              · exact List.mem_cons_of_mem _ (opened crosser member)
      | ended first =>
          cases pending with
          | nil => simp [replay] at played
          | cons latest earlier =>
              by_cases same : latest = first
              · simp only [replay, same, if_true] at played
                obtain ⟨gone, kept, added, before, after, ended, opened⟩ := ih played
                refine ⟨latest :: gone, kept, added, by rw [before, List.cons_append], after,
                  fun crosser member => ?_, fun crosser member => ?_⟩
                · rcases List.mem_cons.mp member with rfl | further
                  · rw [same]
                    exact List.mem_cons_self
                  · exact List.mem_cons_of_mem _ (ended crosser further)
                · exact List.mem_cons_of_mem _ (opened crosser member)
              · simp [replay, same] at played

/-- A crosser that has been around only once and is left open was not ended. -/
theorem replay_unended {events : List Event} {pending left : List Crosser}
    (played : replay events pending = some left) {crosser : Crosser}
    (once : pending.count crosser + events.count (.opened crosser) ≤ 1)
    (remains : crosser ∈ left) : .ended crosser ∉ events := by
  induction events generalizing pending with
  | nil => simp
  | cons event rest ih =>
      cases event with
      | opened first =>
          have still : (first :: pending).count crosser + rest.count (.opened crosser) ≤ 1 := by
            simp only [List.count_cons, beq_iff_eq, Event.opened.injEq] at once ⊢
            omega
          simpa using ih played still
      | ended first =>
          cases pending with
          | nil => simp [replay] at played
          | cons latest earlier =>
              by_cases same : latest = first
              · simp only [replay, same, if_true] at played
                rw [List.count_cons, List.count_cons_of_ne (by simp)] at once
                have others : .ended crosser ∉ rest := ih played (by omega)
                have apart : crosser ≠ first := by
                  rintro rfl
                  -- It was the only one, so nothing like it could be left.
                  simp only [same, beq_self_eq_true, if_true] at once
                  rcases (replay_mem played crosser).mpr (.inl remains) with below | later
                  · have positive := List.count_pos_iff.mpr below
                    omega
                  · have positive := List.count_pos_iff.mpr later
                    omega
                simpa [apart] using others
              · simp [replay, same] at played

end Event

/-- What is behind the blame for a crosser of a type, at the end of a call of a snapshot
with some chain during which misuses were found and crossers opened and ended. -/
inductive Event.Blame (id : ThreadId) (type : CaptorType) (chain : Chain)
    (found : List Misuse) (events : List Event) : Prop where
  /-- A crosser that the thread opened during the call has not been ended. -/
  | leftOpen (crosser : Crosser) (own : crosser.id.thread = id) (named : crosser.type = type)
      (opened : .opened crosser ∈ events) (unended : .ended crosser ∉ events)
  /-- All crossers that were opened during the call have been ended, and so have some that
  are innermost on the chain and were opened before.  The one around these is blamed. -/
  | endedOuter (inner outer : Chain) (crosser : Crosser) (split : chain = inner ++ crosser :: outer)
      (named : crosser.type = type) (occupied : inner ≠ [])
      (around : .opened crosser ∉ events)
      (ended : ∀ other ∈ inner, .ended other ∈ events ∧ .opened other ∉ events)
      (closed : ∀ other, .opened other ∈ events → .ended other ∈ events)
  /-- The chain has been found out of order before. -/
  | disordered (misuse : Misuse) (early : misuse ∈ found) (ofChain : misuse.ofChain = true)

namespace Delegation

/-- Whom the end of a call blames is the innermost crosser that it finds. -/
theorem blamed_of_faults {delegation : Delegation} {thread : Thread} {type : CaptorType}
    (blames : delegation.faults thread = [.crosser type]) :
    thread.chain ≠ delegation.chain ∧
      ∃ crosser outer, thread.chain = crosser :: outer ∧ crosser.type = type := by
  have apart : thread.chain ≠ delegation.chain := fun same => by
    rw [faults_eq_nil.mpr same] at blames
    contradiction
  refine ⟨apart, ?_⟩
  rw [faults, if_neg apart] at blames
  cases reached : thread.chain with
  | nil => simp [reached, misuse] at blames
  | cons crosser outer =>
      refine ⟨crosser, outer, rfl, ?_⟩
      simpa [reached, misuse] using blames

end Delegation

/-- What is behind the blame, as long as the chain was not found out of order before. -/
theorem Course.blame {id : ThreadId} {before after : Standing} {found : List Misuse}
    (course : Course id before found after) (sound : before.Sound id)
    (live : before.thread.live) (linked : ∀ misuse ∈ found, misuse.ofChain = false)
    {crosser : Crosser} {outer : Chain} (reached : after.thread.chain = crosser :: outer)
    (apart : after.thread.chain ≠ before.thread.chain) :
    ∃ events, after.desk.history = before.desk.history ++ events ∧
      Event.Blame id crosser.type before.thread.chain found events := by
  obtain ⟨events, recorded, account⟩ := course.linked_accounts sound live linked
  obtain ⟨others, recorded', fresh, once⟩ := course.numbering
  obtain rfl : events = others := List.append_cancel_left (recorded.symm.trans recorded')
  refine ⟨events, recorded, ?_⟩
  -- Nothing has to be at the bottom, so the events are played from the whole chain.
  obtain ⟨earlier, split, played⟩ :=
    account [] after.thread.chain (Chain.known_nil id _) (List.append_nil _).symm
  rw [List.append_nil] at split
  subst split
  -- What was on the chain has not been opened during the course.
  have known (other : Crosser) (member : other ∈ before.thread.chain) :
      .opened other ∉ events := fun opened => by
    rcases fresh other opened with ⟨own, least, -⟩
    have bound := sound.chain other member own
    omega
  obtain ⟨gone, kept, added, start, rest, ended, opened⟩ := Event.replay_split played
  have onTop : crosser ∈ after.thread.chain := reached ▸ List.mem_cons_self
  cases added with
  | nil =>
      rw [List.nil_append] at rest
      have still (other : Crosser) (member : other ∈ after.thread.chain) :
          other ∈ before.thread.chain := by
        rw [start, ← rest]
        exact List.mem_append_right gone member
      refine .endedOuter gone outer crosser ?_ rfl ?_ ?_ (fun other member => ?_)
        (fun other opening => ?_)
      · rw [start, ← rest, reached]
      · rintro rfl
        exact apart (rest.trans start.symm)
      · exact known crosser (still crosser onTop)
      · exact ⟨ended other member, known other (start ▸ List.mem_append_left kept member)⟩
      · rcases (Event.replay_mem played other).mp (.inr opening) with left | ended
        · exact absurd opening (known other (still other left))
        · exact ended
  | cons latest others =>
      obtain rfl : latest = crosser := by
        rw [rest] at reached
        exact (List.cons.inj reached).1
      have opening : .opened latest ∈ events := opened latest List.mem_cons_self
      have absent : before.thread.chain.count latest = 0 :=
        List.count_eq_zero_of_not_mem fun member => known latest member opening
      refine .leftOpen latest (fresh latest opening).1 rfl opening ?_
      refine Event.replay_unended played ?_ onTop
      rw [absent, Nat.zero_add]
      exact once latest

/-- What is behind the blame at the end of a call.  When the end finds an out of order
crosser of some type, then the thread has opened one during the call that has not been
ended; or it has ended innermost crossers of the snapshot that were opened before, all
that it opened itself are ended, and the crosser around those is blamed; or the chain
was found out of order already during the call, and that has been recorded.  Nothing
else is behind it, whatever the body does with its handles and however it ends. -/
theorem Conduct.call_blames (body : Conduct) {snapshot : Snapshot}
    (context : Context) (process : Process Desk)
    (live : (process.thread context.thread).live)
    (sound : (process.standing context.thread).Sound context.thread)
    (shelved : snapshot ∈ process.client.snapshots) (occupied : snapshot.isEmpty = false)
    {left : Process Desk} (ran : snapshot.leftBy body.run context process = left)
    {place : Context} (here : place.thread = context.thread) {type : CaptorType}
    (blames :
      ((snapshot.delegation (process.thread context.thread)).finish place left).2.misuses =
        left.misuses ++ [.crosser type]) :
    ∃ found events, left.misuses = process.misuses ++ found ∧
      left.client.history = process.client.history ++ events ∧
      Event.Blame context.thread type snapshot.chain found events := by
  subst ran
  let left := snapshot.leftBy body.run context process
  have filled : snapshot.chain ≠ [] := by simpa [Snapshot.isEmpty] using occupied
  let start := snapshot.inside context process
  have enter := Snapshot.inside_moved filled context process
  have inside : start.1.thread = context.thread := snapshot.inside_thread context process
  obtain ⟨found, course, recorded⟩ := body.run_took start.1 start.2
  rw [inside, enter.standing] at course
  have misuses : left.misuses = process.misuses ++ found := by
    rw [enter.misuses, List.append_nil] at recorded
    exact recorded
  have shown : (snapshot.entered (process.thread context.thread)).chain = snapshot.chain :=
    (snapshot.chain_entered _).trans (if_pos live)
  have finish := ((snapshot.delegation (process.thread context.thread)).finish_moves
    context.thread (left.thread context.thread) place left here rfl).2.misuses
  have faults := List.append_cancel_left (finish.symm.trans blames)
  obtain ⟨apart, crosser, outer, reached, rfl⟩ := Delegation.blamed_of_faults faults
  by_cases linked : ∀ misuse ∈ found, misuse.ofChain = false
  · have alive := (snapshot.live_entered (process.thread context.thread)).trans live
    have changed : (left.thread context.thread).chain ≠
        (snapshot.entered (process.thread context.thread)).chain := shown ▸ apart
    obtain ⟨events, history, blame⟩ :=
      course.blame (sound.inside shelved) alive linked reached changed
    rw [shown] at blame
    exact ⟨found, events, misuses, history, blame⟩
  · obtain ⟨events, history, -⟩ := course.numbering
    obtain ⟨misuse, early, ofChain⟩ : ∃ misuse ∈ found, misuse.ofChain = true := by
      simpa using linked
    exact ⟨found, events, misuses, history, .disordered misuse early ofChain⟩

/-- Inside a crosser of one type the snapshot of another one is called, and the body
opens two crossers and forgets the outer one of them, whose type is blamed. -/
theorem Conduct.call_blames_forgotten :
    let crosser : Crosser := ⟨⟨.main, 0⟩, ⟨"Log"⟩, "log"⟩
    let snapshot : Snapshot := ⟨[⟨⟨.worker "w", 0⟩, ⟨"Trace"⟩, "tracer"⟩]⟩
    let context : Context := ⟨.debug, .main, false, []⟩
    let process : Process Desk :=
      (Process.start ⟨[], [], [snapshot], []⟩).setThread .main ⟨.empty, [crosser], 1, true⟩
    let count : Conduct := .start (.crosser ⟨"Count"⟩ "counter")
    let log : Conduct := .start (.crosser ⟨"Log"⟩ "other")
    let body : Conduct := count.andThen ((forget 0).andThen (log.andThen (finish 0)))
    let left := snapshot.leftBy body.run context process
    left.misuses = process.misuses ∧ left.client.history.length = 3 ∧
      ∃ found events, left.misuses = process.misuses ++ found ∧
        left.client.history = process.client.history ++ events ∧
        Event.Blame .main ⟨"Count"⟩ snapshot.chain found events := by
  intro crosser snapshot context process count log body left
  have live : (process.thread context.thread).live := by decide
  have sound : (process.standing context.thread).Sound context.thread :=
    ⟨by decide, by decide, by decide⟩
  have shelved : snapshot ∈ process.client.snapshots := by decide
  have silent : left.misuses = process.misuses := by decide +kernel
  have blames : ((snapshot.delegation (process.thread context.thread)).finish context
      left).2.misuses = left.misuses ++ [.crosser ⟨"Count"⟩] := by decide +kernel
  have ran : snapshot.leftBy body.run context process = left := rfl
  refine ⟨silent, by decide +kernel, ?_⟩
  exact call_blames body context process live sound shelved rfl ran rfl blames

/-- The snapshot of two crossers is called inside both, and the body ends the inner one.
Nothing is found out of order, and no crosser is opened during the call, but at its end
the outer one is blamed. -/
theorem Conduct.call_blames_enclosing :
    let crosser (name : String) (captor : CaptorId) : Conduct :=
      .start (.crosser ⟨name⟩ captor)
    let context : Context := ⟨.release, .main, false, []⟩
    let prior : Conduct := (crosser "Log" "log").andThen
      ((crosser "Count" "counter").andThen capture)
    let process := (prior.run context (.start .empty)).2
    let snapshot := process.client.snapshot 0
    let left := snapshot.leftBy (finish 0).run context process
    ((snapshot.delegation (process.thread .main)).finish context left).2.misuses =
        left.misuses ++ [.crosser ⟨"Log"⟩] ∧
      left.misuses = process.misuses ∧
      left.client.history =
        process.client.history ++ [.ended ⟨⟨.main, 1⟩, ⟨"Count"⟩, "counter"⟩] := by
  decide +kernel

end Ambient
