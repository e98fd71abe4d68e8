import Ambient.Proofs.Lexical

/-!
# Blocks past the teardown of their thread

Code may still run on a thread whose slots and chain are destroyed.  Nothing is in
scope there, no snapshot finds a crosser, and every body runs as if the scopes around
it were not there.  But a scope that has a captor to put into its slot, or a crosser
or a call that has a chain to put in force, does not find it again at its end.  So it
is reported, though it ends in its turn: only bridges of nothing and calls of empty
snapshots end in silence.
-/

namespace Ambient

/-! ## What is found lost -/

namespace Thread

variable {thread : Thread}

theorem current_of_torn (torn : thread.live = false) (type : CaptorType) :
    thread.current type = none := by
  simp [current, torn]

theorem chain_of_torn (torn : thread.live = false) : thread.chain = [] := by
  simp [chain, torn]

end Thread

namespace Opening

/-- The misuses that the end of a scope finds where nothing can be in force. -/
def lost : Opening → List Misuse
  | .capture type _ => [.capture type]
  | .crossing ⟨_, none⟩ => []
  | .crossing ⟨type, some _⟩ => [.crossing type]
  | .crosser type _ => [.crosser type, .capture type]

theorem faults_of_torn {left : Thread} (torn : left.live = false) (opening : Opening)
    (id : ThreadId) (thread : Thread) :
    (opening.handle id thread).faults left = opening.lost := by
  rcases opening with ⟨type, captor⟩ | ⟨type, _ | captor⟩ | ⟨type, captor⟩ <;>
    simp [handle, Handle.faults, Scope.faults, Scope.misuse, lost, CrosserScope.chainFaults,
      CrosserScope.ofThread, CrosserScope.node, Thread.current_of_torn torn,
      Thread.chain_of_torn torn]

/-- What a body inside can build bridges of. -/
def lends : Opening → List Bridge
  | .capture type captor => [⟨type, some captor⟩]
  | _ => []

theorem lends_eq_lent (opening : Opening) (id : ThreadId) (thread : Thread) :
    (opening.lent (opening.handle id thread)).map Bridge.ofScope = opening.lends := by
  cases opening <;> rfl

end Opening

namespace Snapshot

/-- The misuses that the end of a call finds where nothing can be in force: the chain
is gone, and so is every captor. -/
def lost (snapshot : Snapshot) : List Misuse :=
  if snapshot.isEmpty then []
  else .call :: snapshot.entries.map fun crosser => .crossing crosser.type

theorem lost_eq_nil (snapshot : Snapshot) : snapshot.lost = [] ↔ snapshot.isEmpty := by
  cases empty : snapshot.isEmpty <;> simp [lost, empty]

theorem faultsAll_of_torn {left : Thread} (torn : left.live = false) (scopes : List Scope)
    (filled : ∀ scope ∈ scopes, scope.installed ≠ none) :
    Scope.faultsAll scopes left = scopes.map Scope.misuse := by
  induction scopes generalizing left with
  | nil => rfl
  | cons scope rest ih =>
      have missing : ¬ left.current scope.type = scope.installed := by
        rw [Thread.current_of_torn torn]
        exact (filled scope List.mem_cons_self).symm
      have closed : (scope.closed left).live = false := by simpa [Scope.closed] using torn
      have others := ih closed fun other member =>
        filled other (List.mem_cons_of_mem _ member)
      simp [Scope.faultsAll, Scope.faults, missing, others]

theorem faults_of_torn {left : Thread} (torn : left.live = false) {snapshot : Snapshot}
    (occupied : snapshot.isEmpty = false) (before : Thread) :
    snapshot.faults before left = snapshot.lost := by
  have gone : [] ≠ snapshot.chain := by
    intro empty
    simp [isEmpty, ← empty] at occupied
  have relinked : (left.setChain before.chain).live = false := by simpa using torn
  have slots := faultsAll_of_torn relinked (snapshot.guards before) (by simp [guards_eq_map])
  rw [faults, slots, Delegation.faults, Thread.chain_of_torn torn]
  simp [lost, occupied, delegation, gone, Delegation.misuse, guards_eq_map, Scope.misuse]

end Snapshot

/-! ## The aftermath of a block -/

namespace Block

/-- What comes of a block past the teardown of its thread, inside scopes of which it
can build bridges.  Threads that it spawns are live. -/
def aftermath : Block → List Bridge → Bool → Ledger → Account
  | .done, _, _, ledger => .silent (.value (), ledger)
  | .andThen first second, lent, raises, ledger =>
      (first.aftermath lent raises ledger).andThen (second.aftermath lent raises)
  | .current type, _, _, ledger => .silent (.value (), ledger.note (.current type none))
  | .send type _, _, _, ledger => .silent (.value (), ledger.note (.answered type false))
  | .capture, _, _, ledger => .silent (.value (), ledger.write (·.keepSnapshot .empty))
  | .point, _, _, ledger => .silent (.value (), ledger.write (·.keepPoint ⟨.empty⟩))
  | .compare first second, _, _, ledger =>
      .silent (.value (), ledger.note
        (.compared (ledger.notebook.snapshot first = ledger.notebook.snapshot second)))
  | .depth position, _, _, ledger =>
      .silent (.value (), ledger.note (.depth (ledger.notebook.snapshot position).depth))
  | .bridge type, _, _, ledger =>
      .silent (.value (), ledger.write (·.keepBridge ⟨type, none⟩))
  | .bridgeOf type level, lent, _, ledger =>
      .silent (.value (), ledger.write
        (·.keepBridge ((lent.filter (·.type = type))[level]?.getD ⟨type, none⟩)))
  | .within enclosure body, lent, raises, ledger =>
      match enclosure.opening? ledger.notebook with
      | none => body.aftermath lent raises ledger
      | some opening =>
          (body.aftermath (opening.lends ++ lent) raises
            ((ledger.count opening).note (.previous opening.type none))).closing
              raises opening.lost
  | .call layers body, lent, raises, ledger =>
      (layers.map ledger.notebook.snapshot).foldr
        (fun snapshot account => account.closing raises snapshot.lost)
        (body.aftermath lent raises ledger)
  | .enter position body, lent, raises, ledger =>
      (body.aftermath lent raises ledger).closing raises
        (ledger.notebook.point position).snapshot.lost
  | .thread body, _, _, ledger =>
      let result := body.meaning (.bare ledger.notebook.nextThread)
        ⟨ledger.notebook.spawn, 0⟩
      .silent (.value (), ⟨result.2.notebook.note (.joined result.1), ledger.opened⟩)
  | .raise message, _, _, ledger => .silent (.panic (.raised message), ledger)
  | .attempt body, lent, raises, ledger =>
      (body.aftermath lent raises ledger).caught .caught

/-- The bridge of what is in scope there, which is nothing. -/
theorem bridge_follows (id : ThreadId) (type : CaptorType) :
    Follows id (·.live = false)
      (Bridge.build type >>= fun bridge => Act.modifyClient (·.keepBridge bridge))
      fun _ ledger => .silent (.value (), ledger.write (·.keepBridge ⟨type, none⟩)) := by
  refine .seeing (fun thread torn => ?_) (.write fun _ => rfl)
  rw [← Thread.current_of_torn torn type]
  exact Bridge.build_moves type id thread

/-- A call in which nothing is in force. -/
theorem call_follows {id : ThreadId} {body : Act Notebook Unit}
    {account : Bool → Ledger → Account} (follows : Follows id (·.live = false) body account)
    (snapshot : Snapshot) :
    Follows id (·.live = false) (snapshot.run body) fun raises ledger =>
      (account raises ledger).closing raises snapshot.lost := by
  cases occupied : snapshot.isEmpty with
  | true =>
      have empty : snapshot.chain = [] := by simpa [Snapshot.isEmpty] using occupied
      rw [Snapshot.run_of_empty empty, snapshot.lost_eq_nil.mpr occupied]
      exact follows.congr fun _ _ => (Account.closing_nil _ _).symm
  | false =>
      apply follows.inside occupied
      · intro thread torn
        simpa using torn
      · intro thread left _ torn
        exact Snapshot.faults_of_torn torn occupied thread
      · intro thread left _ torn
        simpa using torn

theorem layers_follow {id : ThreadId} {body : Act Notebook Unit}
    {account : Bool → Ledger → Account} (follows : Follows id (·.live = false) body account)
    (snapshots : List Snapshot) :
    Follows id (·.live = false) (Snapshot.runAll snapshots body) fun raises ledger =>
      snapshots.foldr (fun snapshot account => account.closing raises snapshot.lost)
        (account raises ledger) := by
  induction snapshots with
  | nil => exact follows
  | cons snapshot rest ih => exact call_follows ih snapshot

/-- Every part of a block comes to what its aftermath tells. -/
theorem run_follows (block : Block) (scopes : List Scope) (lent : List Bridge)
    (same : scopes.map Bridge.ofScope = lent) (id : ThreadId) :
    Follows id (·.live = false) (block.run scopes) (block.aftermath lent) := by
  induction block generalizing scopes lent with
  | done => exact .done
  | andThen first second front back =>
      exact (front scopes lent same).andThen (back scopes lent same)
  | current type =>
      refine .seeing (fun thread torn => ?_) (.note (.current type none))
      rw [← Thread.current_of_torn torn type]
      exact Act.current_moves id thread type
  | send type message =>
      have unanswered : Follows id (·.live = false) (delivery type message none)
          ((send type message).aftermath lent) := .note (.answered type false)
      rw [run_send]
      refine .seeing (fun thread torn => ?_) unanswered
      rw [← Thread.current_of_torn torn type]
      exact Act.current_moves id thread type
  | capture =>
      refine .seeing (fun thread torn => ?_) (.write fun _ => rfl)
      rw [Snapshot.empty, ← Thread.chain_of_torn torn]
      exact Snapshot.capture_moves id thread
  | point =>
      refine .seeing (fun thread torn => ?_) (.write fun _ => rfl)
      rw [Snapshot.empty, ← Thread.chain_of_torn torn]
      exact Snapshot.build_point_moves id thread
  | compare first second => exact .reading fun notebook => .note _
  | depth position => exact .reading fun notebook => .note _
  | bridge type => exact bridge_follows id type
  | bridgeOf type level =>
      have listed : (lent.filter (·.type = type))[level]? =
          (scopes.filter (·.type = type))[level]?.map Bridge.ofScope := by
        rw [← same, List.filter_map, List.getElem?_map]
        rfl
      cases found : (scopes.filter (·.type = type))[level]? with
      | none =>
          simp only [run, found]
          refine (bridge_follows id type).congr fun _ _ => ?_
          simp only [aftermath, listed, found, Option.map_none, Option.getD_none]
      | some scope =>
          simp only [run, found]
          refine Follows.congr (.write fun _ => rfl) fun _ _ => ?_
          simp only [aftermath, listed, found, Option.map_some, Option.getD_some]
  | within enclosure body bodyFollows =>
      have opened : ∀ notebook : Notebook,
          Follows id (·.live = false) (runWithin body.run scopes (enclosure.opening? notebook))
            fun raises ledger =>
              match enclosure.opening? notebook with
              | none => body.aftermath lent raises ledger
              | some opening =>
                  (body.aftermath (opening.lends ++ lent) raises
                    ((ledger.count opening).note (.previous opening.type none))).closing
                      raises opening.lost := by
        intro notebook
        cases enclosure.opening? notebook with
        | none => exact bodyFollows scopes lent same
        | some opening =>
            apply Follows.within (fun _ left => left.live = false) fun _ raises ledger =>
              body.aftermath (opening.lends ++ lent) raises
                (ledger.note (.previous opening.type none))
            · intro thread torn
              rw [enclosed, opening.previous_handle, Thread.current_of_torn torn]
              apply Follows.congr ((Follows.note _).andThen (.holding _ (bodyFollows _ _ ?_)))
              · intro raises ledger
                rfl
              · rw [List.map_append, same, opening.lends_eq_lent]
            · intro thread torn
              simpa using torn
            · intro thread left _ torn
              exact opening.faults_of_torn torn id thread
            · intro thread left _ torn
              simpa using torn
      exact .reading opened
  | call layers body bodyFollows =>
      exact .reading fun notebook =>
        layers_follow (bodyFollows scopes lent same) (layers.map notebook.snapshot)
  | enter position body bodyFollows =>
      exact .reading fun notebook =>
        call_follows (bodyFollows scopes lent same) (notebook.point position).snapshot
  | thread body bodyFollows =>
      exact .onFreshThread fun id => body.run_faithful [] (.bare id) rfl
  | raise message => exact .raise (.raised message)
  | attempt body bodyFollows => exact (bodyFollows scopes lent same).attempt .caught

/-- Past the teardown of its thread a block comes to its aftermath: nothing is ever in
scope, every body runs once and hands on its value, and the misuses recorded are those
of the scopes and calls that had something to put in force, each at its end.  In a debug
build the first of them is raised. -/
theorem run_past_teardown (block : Block) (context : Context) (process : Process Notebook)
    (torn : (process.thread context.thread).live = false)
    (spare : process.Spare context.thread) :
    let told := block.aftermath [] context.raises (process.ledger context.thread)
    let result := block.run [] context process
    result.1 = told.outcome ∧ result.2.client = told.ledger.notebook ∧
      result.2.misuses = process.misuses ++ told.found ∧
      (result.2.thread context.thread).live = false := by
  intro told result
  obtain ⟨outcome, ledger, misuses, still, -⟩ :=
    block.run_follows [] [] rfl context.thread context process rfl ⟨torn, spare⟩
  exact ⟨outcome, congrArg Ledger.notebook ledger, misuses, still⟩

/-- A bridge of nothing is crossed and an empty snapshot is called in silence, inside a
crosser that is reported. -/
theorem run_past_teardown_inside_crosser :
    let log : CaptorType := ⟨"Log"⟩
    let block : Block :=
      within (.crosser log "log")
        (capture.andThen ((bridge log).andThen
          (call [0] (within (.crossing 0) (current log)))))
    let context : Context := ⟨.release, .main, false, []⟩
    let process := (Process.start Notebook.empty).setThread .main Thread.fresh.tornDown
    let result := block.run [] context process
    result.1 = .value () ∧
      result.2.client.trace =
        [.previous log none, .bridged log none, .previous log none, .current log none] ∧
      result.2.misuses = [.crosser log, .capture log] := by
  intro log block context process result
  have spare : process.Spare .main := by
    rintro index -
    refine ⟨by simp, ?_⟩
    rw [Process.thread_setThread, if_neg (by simp)]
    rfl
  obtain ⟨outcome, written, misuses, -⟩ :=
    run_past_teardown block context process rfl spare
  rw [outcome, written, misuses]
  exact ⟨by decide +kernel, by decide +kernel, by decide +kernel⟩

/-- A scope whose body does nothing at all ends in its turn and is reported. -/
theorem run_past_teardown_reported :
    let log : CaptorType := ⟨"Log"⟩
    let block : Block := within (.capture log "log") done
    let process := (Process.start Notebook.empty).setThread .main Thread.fresh.tornDown
    (block.run [] ⟨.release, .main, false, []⟩ process).2.misuses = [.capture log] ∧
      (block.run [] ⟨.debug, .main, false, []⟩ process).1 = .panic (.misused (.capture log)) := by
  intro log block process
  exact ⟨by decide +kernel, by decide +kernel⟩

end Block

end Ambient
