import Ambient.Proofs.Builds
import Ambient.Script.Program

/-!
# How steps are put together

Everything that scopes are started and ended with runs no step, and every step of a
script is put together in the known ways from such acts, from the steps inside it, and
from entries of the history.  The steps are taken family by family, over any interpreter
of which this is known; the levels then follow one from the other.
-/

namespace Ambient.Script

/-! ## Tacit acts -/

namespace Tacit

theorem of_thread {α : Type} (see : Thread → α) :
    Tacit (fun context process => (.value (see (process.thread context.thread)), process)) :=
  .of_still (fun _ _ => rfl) fun _ _ _ _ _ => rfl

theorem thread : Tacit (Act.thread : Run Thread) :=
  of_thread id

theorem current (type : CaptorType) : Tacit (Act.current type : Run (Option CaptorId)) :=
  thread.bind fun _ => .pure _

theorem chain : Tacit (Act.chain : Run Chain) :=
  thread.bind fun _ => .pure _

theorem hold (chain : Chain) : Tacit (Act.hold chain : Run Unit) :=
  .modifyRegistry _

theorem release (chain : Chain) : Tacit (Act.release chain : Run Unit) :=
  .modifyRegistry _

theorem replaceCurrent (type : CaptorType) (captor : Option CaptorId) :
    Tacit (Act.replaceCurrent type captor : Run (Option CaptorId)) :=
  (current type).bind fun _ => (modifyThread _).bind fun _ => .pure _

theorem replaceChain (chain : Chain) : Tacit (Act.replaceChain chain : Run Chain) := by
  refine thread.bind fun thread => (modifyThread _).bind fun _ => ?_
  cases thread.live with
  | true => exact .pure _
  | false => exact (release chain).bind fun _ => .pure _

theorem tearDown : Tacit (Act.tearDown : Run Unit) :=
  chain.bind fun chain => (modifyThread _).bind fun _ => release chain

/-! ## Scopes -/

theorem startScope (kind : ScopeKind) (type : CaptorType) (installed : Option CaptorId) :
    Tacit (Scope.start kind type installed : Run Scope) :=
  (replaceCurrent type installed).bind fun _ => .pure _

theorem freshId : Tacit (CrosserScope.freshId : Run CrosserId) :=
  ⟨fun _ _ _ _ _ => rfl, fun _ _ _ => rfl⟩

theorem startCrosser (type : CaptorType) (captor : CaptorId) :
    Tacit (CrosserScope.start type captor : Run CrosserScope) := by
  refine freshId.bind fun id => chain.bind fun outer => (modifyRegistry _).bind fun _ => ?_
  refine (hold _).bind fun _ => (replaceChain _).bind fun replaced => ?_
  exact (release replaced).bind fun _ => (startScope ..).bind fun _ => .pure _

theorem startBridge (bridge : Bridge) : Tacit (bridge.start : Run Scope) :=
  startScope ..

theorem startDelegation (chain : Chain) : Tacit (Delegation.start chain : Run Delegation) :=
  (hold chain).bind fun _ => (hold chain).bind fun _ =>
    (replaceChain chain).bind fun _ => .pure _

/-! ## Snapshots -/

theorem capture : Tacit (Snapshot.capture : Run Snapshot) :=
  chain.bind fun chain => (hold chain).bind fun _ => .pure _

theorem buildPoint : Tacit (EntryPoint.build : Run EntryPoint) :=
  capture.bind fun _ => .pure _

theorem clone (snapshot : Snapshot) : Tacit (snapshot.clone : Run Snapshot) :=
  (hold _).bind fun _ => .pure _

theorem holdAll (snapshots : List Snapshot) : Tacit (Snapshot.holdAll snapshots : Run Unit) := by
  induction snapshots with
  | nil => exact .pure ()
  | cons snapshot rest ih => exact (hold _).bind fun _ => ih

theorem dropAll (snapshots : List Snapshot) : Tacit (Snapshot.dropAll snapshots : Run Unit) := by
  induction snapshots with
  | nil => exact .pure ()
  | cons snapshot rest ih => exact (release _).bind fun _ => ih

theorem install (crossers : List Crosser) :
    Tacit (Snapshot.install crossers : Run (List Scope)) := by
  induction crossers with
  | nil => exact .pure []
  | cons crosser rest ih => exact (startScope ..).bind fun _ => ih.bind fun _ => .pure _

theorem drop (item : Item) : Tacit (item.drop : Run Unit) :=
  dropAll _

/-! ## Sessions -/

theorem of_session {α : Type} (see : ThreadId → Session → α)
    (blind : ∀ id (session : Session) (history : List Happening),
      see id { session with history := history } = see id session) :
    Tacit (fun context process => (.value (see context.thread process.client), process)) :=
  .of_still (fun _ _ => rfl) fun context process _ _ history =>
    congrArg Outcome.value (blind context.thread process.client history)

theorem threadId : Tacit Run.threadId :=
  of_session (fun id _ => id) fun _ _ _ => rfl

theorem item? (register : String) : Tacit (Run.item? register) :=
  of_session (fun _ session => session.registers.find? register) fun _ _ _ => rfl

theorem handles : Tacit Run.handles :=
  of_session (fun id session => session.handlesOf id) fun _ _ _ => rfl

theorem futures : Tacit Run.futures :=
  of_session (fun id session => session.futuresOf id) fun _ _ _ => rfl

theorem handle? (name : String) : Tacit (Run.handle? name) :=
  handles.bind fun _ => .pure _

theorem alive : Tacit Run.alive :=
  .of_still (fun _ _ => rfl) fun _ _ _ _ _ => rfl

theorem unbind (register : String) : Tacit (Run.unbind register) :=
  .modify (fun _ _ => rfl) fun _ => rfl

theorem bindItem (register : String) (item : Item) : Tacit (Run.bind register item) := by
  have put : Tacit (Run.modify fun session =>
      { session with registers := session.registers.insert register item }) :=
    .modify (fun _ _ => rfl) fun _ => rfl
  refine (item? register).bind fun old => put.bind fun _ => ?_
  cases old with
  | none => exact .pure ()
  | some item => exact .drop item

theorem setHandles (handles : List (String × Handle)) : Tacit (Run.setHandles handles) :=
  threadId.bind fun _ => .modify (fun _ _ => rfl) fun _ => rfl

theorem removeHandle (name : String) : Tacit (Run.removeHandle name) :=
  handles.bind fun _ => setHandles _

theorem setFutures (futures : Table String Future) : Tacit (Run.setFutures futures) :=
  threadId.bind fun _ => .modify (fun _ _ => rfl) fun _ => rfl

theorem removeFuture (name : String) : Tacit (Run.removeFuture name) :=
  futures.bind fun _ => setFutures _

/-- A captor that is made has logged nothing yet. -/
theorem makeCaptor (id type manner : String) (onMessage : List Step) :
    Tacit (makeCaptor id type manner onMessage) := by
  have bound (channel : Channel) :
      Tacit (Run.bind id (.captor id channel) >>= fun _ => Pure.pure Value.null) :=
    (bindItem id _).bind fun _ => .pure _
  cases known : Channel.ofLabel? type with
  | none =>
      have run (context : Context) (process : Process Session) :
          Script.makeCaptor id type manner onMessage context process =
            (.value (if process.client.receivers.contains id then .error .id else .error .type),
              process) := by
        simp only [Script.makeCaptor, withChannel, known, Act.bind_apply, Run.session, Act.client]
        split <;> rfl
      exact .of_still run fun _ _ _ _ _ => rfl
  | some channel =>
      have run (context : Context) (process : Process Session) :
          Script.makeCaptor id type manner onMessage context process =
            if process.client.receivers.contains id then (.value (.error .id), process)
            else (Run.bind id (.captor id channel) >>= fun _ => Pure.pure Value.null) context
              (process.receiving id ⟨channel, channel.manner manner, onMessage, []⟩) := by
        simp only [Script.makeCaptor, withChannel, known, Act.bind_apply, Run.session, Act.client]
        split <;> rfl
      constructor
      · intro context process build records history
        have here : (process.rewritten records history).client.receivers.contains id =
            process.client.receivers.contains id := rfl
        rw [run, run, here]
        split
        · rfl
        · exact (bound channel).blind context (process.receiving id _) build records history
      · intro context process captor
        rw [run]
        split
        · rfl
        · next absent =>
            -- The identity was free, so its log was empty before as it is now.
            rw [(bound channel).logs, logOf_receiving]
            split
            · next same =>
                have missing : process.client.receivers.find? captor = none := by
                  simpa [Table.contains, same] using absent
                simp [Session.logOf, missing]
            · rfl

end Tacit

/-! ## Ends of scopes -/

namespace Aside

theorem unless_report (fine : Prop) [Decidable fine] (misuse : Misuse) :
    Aside (do unless fine do Act.report misuse : Run Unit) := by
  by_cases fine
  case pos passed => simpa [passed] using tacit (.pure ())
  case neg failed => simpa [failed] using report misuse

theorem finishScope (scope : Scope) : Aside (scope.finish : Run Unit) :=
  (tacit (.replaceCurrent ..)).bind fun _ => unless_report _ _

theorem finishScopes (scopes : List Scope) : Aside (Scope.finishAll scopes : Run Unit) := by
  induction scopes with
  | nil => exact tacit (.pure ())
  | cons scope rest ih => exact (finishScope scope).ensuring ih

theorem finishChain (scope : CrosserScope) : Aside (scope.finishChain : Run Unit) :=
  (tacit (.hold _)).bind fun _ => (tacit (.replaceChain _)).bind fun _ =>
    (tacit (.release _)).bind fun _ => (tacit (.release _)).bind fun _ => unless_report _ _

theorem finish (handle : Handle) : Aside (handle.finish : Run Unit) := by
  cases handle with
  | slot scope => exact finishScope scope
  | crosser scope => exact (finishChain scope).ensuring (finishScope scope.slot)

theorem finishAll (handles : List Handle) : Aside (Handle.finishAll handles : Run Unit) := by
  induction handles with
  | nil => exact tacit (.pure ())
  | cons handle rest ih => exact (finish handle).ensuring ih

theorem finishStack (handles : List Handle) : Aside (Handle.finishStack handles : Run Unit) := by
  induction handles with
  | nil => exact tacit (.pure ())
  | cons handle rest ih => exact ((finish handle).onPanic (finishAll rest.reverse)).bind fun _ => ih

theorem finishDelegation (delegation : Delegation) : Aside (delegation.finish : Run Unit) :=
  (tacit (.replaceChain _)).bind fun _ => (tacit (.release _)).bind fun _ =>
    (tacit (.release _)).bind fun _ => unless_report _ _

theorem buildBridge (type : CaptorType) : Aside (Bridge.build type : Run Bridge) :=
  (tacit (.current type)).bind fun _ => (describe rfl).bind fun _ => tacit (.pure _)

theorem dropFuture (future : Future) : Aside (future.drop : Run Unit) :=
  (tacit (.dropAll _)).bind fun _ => finishAll _

theorem keepFuture (name : String) (future : Future) : Aside (Run.keepFuture name future) := by
  refine (tacit .futures).bind fun kept => (tacit (.setFutures _)).bind fun _ => ?_
  cases kept.find? name with
  | none => exact tacit (.pure ())
  | some old => exact dropFuture old

end Aside

/-! ## Acts around others -/

namespace Stepwise

variable {α β : Type} {loose : Bool} {act body : Run α}

/-- Acts that write nothing are neither tight nor loose. -/
theorem quiet (tacit : Tacit act) : Stepwise loose act := by
  cases loose with
  | true => exact (Stepwise.tacit tacit).loosen
  | false => exact .tacit tacit

theorem value (value : α) : Stepwise loose (pure value : Run α) :=
  quiet (.pure value)

theorem session {next : Session → Run β}
    (blind : ∀ (session : Session) (history : List Happening),
      next { session with history := history } = next session)
    (rest : ∀ session, Stepwise loose (next session)) : Stepwise loose (Run.session >>= next) :=
  @reading loose β (fun _ process => next process.client)
    (fun _ process _ _ history => blind process.client history) fun _ process => rest process.client

theorem modifying {change : Session → Session} {next : Unit → Run α}
    (blind : ∀ (session : Session) (history : List Happening),
      change { session with history := history } = { change session with history := history })
    (logs : ∀ session : Session, (change session).receivers = session.receivers)
    (rest : Stepwise loose (next ())) : Stepwise loose (Run.modify change >>= next) :=
  (quiet (.modify blind logs)).bind fun _ => rest

theorem dispatch {act : CaptorId → Run α} (type : CaptorType)
    (rest : ∀ captor, Stepwise loose (act captor)) : Stepwise loose (Act.dispatch type act) := by
  refine (quiet (.current type)).bind fun found => ?_
  cases found with
  | none => exact value none
  | some captor => exact ((rest captor).holding _).bind fun _ => value _

theorem inside (snapshot : Snapshot) (stepwise : Stepwise true body) :
    Stepwise true (snapshot.run body) := by
  unfold Snapshot.run
  split
  · exact stepwise
  · refine (aside (.describe rfl)).bind fun _ => (quiet (.install _)).bind fun scopes => ?_
    refine (quiet (.startDelegation _)).bind fun delegation => ?_
    exact ((stepwise.holding _).ensuring (.finishDelegation delegation)).ensuring
      (.finishScopes scopes)

theorem insideAll (snapshots : List Snapshot) (stepwise : Stepwise true body) :
    Stepwise true (Snapshot.runAll snapshots body) := by
  induction snapshots with
  | nil => exact stepwise
  | cons snapshot rest ih => exact ih.inside snapshot

/-- What the entry of a step says of its outcome. -/
def resultOf : Outcome Value → Value
  | .value value => value
  | .panic panic => .panicked panic.message

/-- A step ends with an entry of its own, which panics pass. -/
theorem recorded (label : String) {step : Run Value} (stepwise : Stepwise true step) :
    Stepwise false (Run.recorded label step) := by
  have same : Run.recorded label step =
      (Act.attempt step >>= fun outcome => Run.addEntry label (resultOf outcome) >>= fun _ =>
        pure outcome) >>= Act.conclude := by
    simp only [bind_assoc, pure_bind]
    refine congrArg (fun next => Act.attempt step >>= next) (funext fun outcome => ?_)
    cases outcome <;> rfl
  rw [same]
  exact (entered label resultOf stepwise).bind fun outcome => tacit (.conclude outcome)

end Stepwise

/-- Every step and every poll of an interpreter is put together in the known ways. -/
structure Interpreter.Composed (interpreter : Interpreter) : Prop where
  step : ∀ place step, Stepwise false (interpreter.step place step)
  poll : ∀ place future, Stepwise true (interpreter.poll place future)

variable {interpreter : Interpreter} {loose : Bool}

theorem Interpreter.Composed.steps (composed : interpreter.Composed) (place : Place)
    (index : Nat) (value : Value) (body : List Step) :
    Stepwise false (interpreter.steps place index value body) := by
  induction body generalizing index value with
  | nil => exact .value value
  | cons step rest ih => exact (composed.step _ step).bind fun value => ih (index + 1) value

theorem Interpreter.Composed.body (composed : interpreter.Composed) (place : Place)
    (body : List Step) : Stepwise false (interpreter.body place body) :=
  composed.steps place 0 .null body

/-! ## Captors -/

namespace Stepwise

theorem withChannel (label : String) {next : Channel → Run Value}
    (rest : ∀ channel, Stepwise loose (next channel)) :
    Stepwise loose (withChannel label next) := by
  unfold Script.withChannel
  split
  · exact value _
  · exact rest _

theorem deliver (composed : interpreter.Composed) (place : Place) (captor : CaptorId)
    (message : Value) : Stepwise false (interpreter.deliver place captor message) := by
  refine (receive captor message).bind fun found => ?_
  cases found with
  | error error => exact value _
  | ok receiver => exact (composed.body place receiver.onMessage).bind fun _ => value _

theorem emit (composed : interpreter.Composed) (place : Place) (channel : Channel)
    (message : Value) : Stepwise false (interpreter.emit place channel message) :=
  (dispatch _ fun captor => deliver composed place captor message).bind fun _ => value _

end Stepwise

theorem CaptorStep.run_stepwise (composed : interpreter.Composed) (place : Place)
    (step : CaptorStep) : Stepwise true (step.run interpreter place) := by
  cases step with
  | release register =>
      refine (Stepwise.quiet .futures).bind fun kept => ?_
      cases kept.find? register with
      | some future =>
          refine (Stepwise.quiet (.removeFuture register)).bind fun _ => ?_
          exact (Stepwise.aside (.dropFuture future)).bind fun _ => .value _
      | none =>
          refine (Stepwise.quiet (.item? register)).bind fun found => ?_
          cases found with
          | none => exact .value _
          | some item =>
              refine (Stepwise.quiet (.unbind register)).bind fun _ => ?_
              exact (Stepwise.quiet (.drop item)).bind fun _ => .value _
  | alive => exact (Stepwise.quiet .alive).bind fun _ => .value _
  | current type =>
      exact .withChannel type fun channel => (Stepwise.quiet (.current _)).bind fun _ => .value _
  | emit type message =>
      exact .withChannel type fun channel => (Stepwise.emit composed place channel message).loosen
  | hoist type name =>
      refine .withChannel type fun channel => (Stepwise.quiet (.current _)).bind fun found => ?_
      cases found with
      | none => exact .value _
      | some captor => exact (Stepwise.quiet (.bindItem name _)).bind fun _ => .value _
  | emitTo register message =>
      refine (Stepwise.quiet (.item? register)).bind fun found => ?_
      split
      · exact (Stepwise.deliver composed place _ message).loosen.holding _
      · exact .value _

/-! ## Handles -/

/-- However a handle is started, nothing is written. -/
theorem HandleKind.starting?_tacit {kind : HandleKind} {item : Item} {starting : Run Handle}
    (found : kind.starting? item = some starting) : Tacit starting := by
  cases kind <;> cases item <;> simp only [starting?, Option.some.injEq, reduceCtorEq] at found
  case scoped.captor captor channel => exact found ▸ (Tacit.startScope ..).bind fun _ => .pure _
  case auto.captor captor channel => exact found ▸ (Tacit.startCrosser ..).bind fun _ => .pure _
  case cross.bridge bridge => exact found ▸ (Tacit.startBridge _).bind fun _ => .pure _

theorem Stepwise.starting {α : Type} {kind : HandleKind} {register : String}
    {next : Option (Run Handle) → Run α}
    (rest : ∀ found, (∀ starting, found = some starting → Tacit starting) →
      Stepwise loose (next found)) :
    Stepwise loose (starting? kind register >>= next) := by
  have looked : starting? kind register >>= next = Run.session >>= fun session =>
      next ((session.registers.find? register).bind kind.starting?) := rfl
  rw [looked]
  refine .session (fun _ _ => rfl) fun session => rest _ fun starting same => ?_
  obtain ⟨item, -, started⟩ := Option.bind_eq_some_iff.mp same
  exact HandleKind.starting?_tacit started

theorem withStarting_stepwise (kind register : String) {next : Run Handle → Run Value}
    (rest : ∀ starting, Tacit starting → Stepwise loose (next starting)) :
    Stepwise loose (withStarting kind register next) := by
  unfold withStarting
  split
  · exact .value _
  · refine .starting fun found tacit => ?_
    cases found with
    | none => exact .value _
    | some starting => exact rest starting (tacit starting rfl)

theorem startPile_tacit {starting : Run Handle} (tacit : Tacit starting) (count : Nat)
    (pile : List Handle) : Tacit (startPile starting count pile) := by
  induction count generalizing pile with
  | zero => exact .pure pile
  | succ count ih => exact tacit.bind fun handle => ih (handle :: pile)

theorem runScope_stepwise (kind register : String) {body : Run Value}
    (stepwise : Stepwise true body) : Stepwise true (runScope kind register body) :=
  withStarting_stepwise kind register fun _ tacit => (Stepwise.quiet tacit).bind fun handle =>
    (stepwise.holding handle.captors).ensuring (.finish handle)

theorem runDeep_stepwise (count : Nat) (kind register : String) {body : Run Value}
    (stepwise : Stepwise true body) : Stepwise true (runDeep count kind register body) := by
  refine withStarting_stepwise kind register fun starting tacit => ?_
  refine (Stepwise.quiet (startPile_tacit tacit count [])).bind fun pile => ?_
  refine ((stepwise.holding _).onPanic (.finishAll _)).bind fun value => ?_
  exact (Stepwise.aside (.finishStack pile)).bind fun _ => .value value

theorem HandleStep.run_stepwise (step : HandleStep) : Stepwise true step.run := by
  cases step with
  | start kind name register =>
      refine (Stepwise.quiet (.handle? name)).bind fun known => ?_
      split
      · exact .value _
      · refine .starting fun found tacit => ?_
        cases found with
        | none => exact .value _
        | some starting =>
            refine (Stepwise.quiet (tacit starting rfl)).bind fun handle => ?_
            refine (Stepwise.quiet .handles).bind fun handles => ?_
            exact (Stepwise.quiet (.setHandles _)).bind fun _ => .value _
  | finish name =>
      refine (Stepwise.quiet (.handle? name)).bind fun found => ?_
      cases found with
      | none => exact .value _
      | some handle =>
          refine (Stepwise.quiet (.removeHandle name)).bind fun _ => ?_
          exact (Stepwise.aside (.finish handle)).bind fun _ => .value _
  | forget name =>
      refine (Stepwise.quiet (.handle? name)).bind fun found => ?_
      cases found with
      | none => exact .value _
      | some handle =>
          refine (Stepwise.quiet (.removeHandle name)).bind fun _ => ?_
          exact .modifying (fun _ _ => rfl) (fun _ => rfl) (.value _)
  | inspect name pretty =>
      refine (Stepwise.quiet (.handle? name)).bind fun found => ?_
      cases found with
      | none => exact .value _
      | some handle => exact .value _

end Ambient.Script
