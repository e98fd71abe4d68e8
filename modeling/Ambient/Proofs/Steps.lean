import Ambient.Proofs.Polls
import Ambient.Script.Program

/-!
# Tidy steps

Every tidy step leaves what is in scope as it was, at whatever level of nesting.  The
steps are taken family by family, over any interpreter that keeps what is in scope;
the levels then follow one from the other.
-/

namespace Ambient.Script

variable {foreign : String → Bool} {interpreter : Interpreter}

/-! ## Captors -/

namespace Keeps

theorem alive : Keeps foreign Run.alive Any :=
  context.bind fun _ _ => process.bind fun _ _ => .pure trivial

theorem handles : Keeps foreign Run.handles Any :=
  session.bind fun _ _ => threadId.bind fun _ _ => .pure trivial

theorem handle? (name : String) : Keeps foreign (Run.handle? name) Any :=
  handles.bind fun _ _ => .pure trivial

theorem withChannel (label : String) {next : Channel → Run Value}
    (rest : ∀ channel, Keeps foreign (next channel) Any) :
    Keeps foreign (withChannel label next) Any := by
  unfold Script.withChannel
  split
  · exact .pure trivial
  · exact rest _

theorem dispatch {α : Type} (type : CaptorType) {act : CaptorId → Run α}
    (rest : ∀ captor, Keeps foreign (act captor) Any) :
    Keeps foreign (Act.dispatch type act) Any := by
  refine (current type).bind fun found _ => ?_
  cases found with
  | none => exact .pure trivial
  | some captor => exact ((rest captor).holding _).bind fun _ _ => .pure trivial

theorem receive (captor : CaptorId) (message : Value) :
    Keeps foreign (Run.receive captor message) fun found => ∀ receiver, found = .ok receiver →
      Step.allTidy foreign false receiver.onMessage = true := by
  refine session.bind fun session fine => ?_
  cases found : session.receivers.find? captor with
  | none => exact .pure nofun
  | some receiver =>
      let value := receiver.manner.entry captor receiver.log.head? message
      let after : Receiver := { receiver with log := value :: receiver.log }
      have script : Step.allTidy foreign false after.onMessage = true :=
        fine.receivers captor receiver found
      have noted : Keeps foreign (Run.note (.logged captor value)) Any := note rfl
      dsimp only
      split
      · refine (modify (fun _ fine => fine.receive captor script)
          fun _ => ⟨rfl, rfl, rfl, fun _ _ _ => rfl⟩).bind fun _ _ => noted.bind fun _ _ => ?_
        exact .pure fun _ same => Except.ok.inj same ▸ script
      · exact .pure nofun

theorem deliver (tidy : interpreter.Tidy foreign) (place : Place) (captor : CaptorId)
    (message : Value) : Keeps foreign (interpreter.deliver place captor message) Any := by
  refine (receive captor message).bind fun found script => ?_
  cases found with
  | error error => exact .pure trivial
  | ok receiver => exact (tidy.body place (script receiver rfl)).bind fun _ _ => .pure trivial

theorem emit (tidy : interpreter.Tidy foreign) (place : Place) (channel : Channel)
    (message : Value) : Keeps foreign (interpreter.emit place channel message) Any :=
  (dispatch _ fun captor => deliver tidy place captor message).bind fun _ _ => .pure trivial

end Keeps

theorem CaptorStep.run_keeps (tidy : interpreter.Tidy foreign) (place : Place)
    {step : CaptorStep} (tidyStep : step.tidy foreign = true) :
    Keeps foreign (step.run interpreter place) Any := by
  cases step with
  | release register =>
      have own : foreign register = false := by simpa [CaptorStep.tidy] using tidyStep
      refine Keeps.futures.bind fun kept fine => ?_
      cases found : kept.find? register with
      | some future =>
          refine (Keeps.removeFuture own).bind fun _ _ => ?_
          exact (Keeps.dropFuture (fine register future own found)).bind fun _ _ => .pure trivial
      | none =>
          refine (Keeps.item? register).bind fun found _ => ?_
          cases found with
          | none => exact .pure trivial
          | some item =>
              refine (Keeps.unbind register).bind fun _ _ => ?_
              exact (Keeps.drop item).bind fun _ _ => .pure trivial
  | alive =>
      exact Keeps.alive.bind fun _ _ => .pure trivial
  | current type =>
      exact .withChannel type fun channel =>
        (Keeps.current channel.captorType).bind fun _ _ => .pure trivial
  | emit type message =>
      exact .withChannel type fun channel => .emit tidy place channel message
  | hoist type name =>
      refine .withChannel type fun channel =>
        (Keeps.current channel.captorType).bind fun found _ => ?_
      cases found with
      | none => exact .pure trivial
      | some captor =>
          have fine : (Item.captor captor channel).Tidy foreign := trivial
          exact (Keeps.bindItem name fine).bind fun _ _ => .pure trivial
  | emitTo register message =>
      refine (Keeps.item? register).bind fun found _ => ?_
      split
      · exact (Keeps.deliver tidy place _ message).holding _
      · exact .pure trivial

theorem makeCaptor_keeps (id type manner : String) {onMessage : List Step}
    (script : Step.allTidy foreign false onMessage = true) :
    Keeps foreign (makeCaptor id type manner onMessage) Any := by
  refine Keeps.session.bind fun session _ => ?_
  split
  · exact .pure trivial
  · refine .withChannel type fun channel => ?_
    refine (Keeps.modify (fun _ fine => fine.receive id script)
      fun _ => ⟨rfl, rfl, rfl, fun _ _ _ => rfl⟩).bind fun _ _ => ?_
    have fine : (Item.captor id channel).Tidy foreign := trivial
    exact (Keeps.bindItem id fine).bind fun _ _ => .pure trivial

/-! ## Scopes -/

theorem HandleStep.run_keeps {step : HandleStep} (fine : step.tidy = true) :
    Keeps foreign step.run Any := by
  cases step with
  | inspect name pretty =>
      refine (Keeps.handle? name).bind fun found _ => ?_
      cases found with
      | none => exact .pure trivial
      | some handle => exact .pure trivial
  | _ => contradiction

theorem runScope_keeps (kind register : String) {body : Run Value}
    (keeps : Keeps foreign body Any) : Keeps foreign (runScope kind register body) Any := by
  unfold runScope withStarting
  split
  · exact .pure trivial
  · refine .of_unwinding (.starting fun found opens => ?_)
    cases found with
    | none => exact .of_keeps (.pure trivial)
    | some starting =>
        obtain ⟨opening, rfl⟩ := opens starting rfl
        exact .of_keeps (.within opening fun handle => keeps.holding handle.captors)

/-! ## Items -/

theorem taking_keeps (place : Place) {register : String} (own : foreign register = false)
    {fits : Item → Bool} {next : Item → Run Value}
    (rest : ∀ item : Item, item.Tidy foreign → Keeps foreign (next item) Any) :
    Keeps foreign (taking place register fits next) Any := by
  refine (Keeps.item? register).bind fun found fine => ?_
  cases found with
  | none => exact .pure trivial
  | some item =>
      have goes : Keeps foreign (Run.unbind register >>= fun _ => next item) Any :=
        (Keeps.unbind register).bind fun _ _ => rest item (fine item own rfl)
      dsimp only
      split
      · split
        · split
          · exact .pure trivial
          · exact goes
        · exact goes
      · exact .pure trivial

theorem Keeps.numberWrapped {count : Nat} :
    Keeps foreign (Run.modify fun session => { session with wrapped := count }) Any :=
  .modify (fun _ fine => ⟨fine.receivers, fine.registers, fine.futures, fine.suspended⟩)
    fun _ => ⟨rfl, rfl, rfl, fun _ _ _ => rfl⟩

/-- What can be cloned runs nothing of its own. -/
theorem Item.tidy_of_clonable {item : Item} (clonable : item.clonable = true) :
    item.Tidy foreign := by
  cases item with
  | wrapped callable =>
      cases action : callable.action with
      | pointer => simp [Item.Tidy, action, Action.tidy]
      | _ => simp [Item.clonable, action] at clonable
  | plain | future | raw => contradiction
  | _ => trivial

namespace ItemStep

theorem bindNull_keeps (name : String) {item : Item} (fine : item.Tidy foreign) :
    Keeps foreign (bindNull name item) Any :=
  (Keeps.bindItem name fine).bind fun _ _ => .pure trivial

theorem runRewrap_keeps (name : String) {item : Item} (fine : item.Tidy foreign) :
    Keeps foreign (runRewrap name item) Any := by
  cases item with
  | plain callable =>
      refine Keeps.capture.bind fun snapshot _ => Keeps.session.bind fun session _ => ?_
      exact Keeps.numberWrapped.bind fun _ _ => bindNull_keeps name fine
  | _ => exact bindNull_keeps name fine

theorem runIntoPlain_keeps (name : String) {item : Item} (fine : item.Tidy foreign) :
    Keeps foreign (runIntoPlain name item) Any := by
  cases item with
  | wrapped callable => exact bindNull_keeps name fine
  | _ => exact bindNull_keeps name fine

theorem runUnwrap_keeps (name : String) {item : Item} (fine : item.Tidy foreign) :
    Keeps foreign (runUnwrap name item) Any := by
  cases item with
  | wrapped callable =>
      exact (Keeps.release _).bind fun _ _ => bindNull_keeps name fine
  | future left =>
      exact (Keeps.release _).bind fun _ _ => bindNull_keeps name (Future.Tidy.unwrapped fine)
  | _ => exact bindNull_keeps name fine

theorem runWrapFuture_keeps (name : String) {item : Item} (fine : item.Tidy foreign) :
    Keeps foreign (runWrapFuture name item) Any := by
  cases item with
  | future left =>
      exact Keeps.capture.bind fun snapshot _ =>
        bindNull_keeps name (Future.Tidy.wrapIn fine snapshot)
  | raw left =>
      exact Keeps.capture.bind fun snapshot _ =>
        bindNull_keeps name (Future.Tidy.wrapIn fine snapshot)
  | _ => exact bindNull_keeps name fine

theorem runLook_keeps (register : String) (pretty : Bool) :
    Keeps foreign (runLook register pretty) Any := by
  refine Keeps.futures.bind fun kept _ => ?_
  cases kept.find? register with
  | some future => exact .pure trivial
  | none =>
      refine (Keeps.item? register).bind fun found _ => ?_
      cases found with
      | none => exact .pure trivial
      | some item => exact .pure trivial

theorem run_keeps (place : Place) {step : ItemStep} (tidy : step.tidy foreign = true) :
    Keeps foreign (step.run place) Any := by
  have taken {register : String} {fits : Item → Bool} {next : Item → Run Value}
      (own : !foreign register) (rest : ∀ item : Item, item.Tidy foreign →
        Keeps foreign (next item) Any) : Keeps foreign (taking place register fits next) Any :=
    taking_keeps place (by simpa using own) rest
  cases step with
  | bridge type name =>
      simp only [run]
      split
      · exact .pure trivial
      · refine (Keeps.buildBridge _).bind fun built _ => ?_
        have fine : (Item.bridge built).Tidy foreign := trivial
        exact (Keeps.bindItem name fine).bind fun _ _ => .pure trivial
  | bridgeFrom handle name =>
      refine (Keeps.handle? handle).bind fun found _ => ?_
      split
      · split
        · exact bindNull_keeps name trivial
        · exact .pure trivial
      · exact .pure trivial
  | snapshot name => exact Keeps.capture.bind fun _ _ => bindNull_keeps name trivial
  | emptySnapshot name => exact bindNull_keeps name trivial
  | point name => exact Keeps.buildPoint.bind fun _ _ => bindNull_keeps name trivial
  | emptyPoint name => exact bindNull_keeps name trivial
  | snapshotOf register name =>
      refine (Keeps.item? register).bind fun found _ => ?_
      split
      · exact .pure trivial
      · exact (Keeps.clone _).bind fun _ _ => bindNull_keeps name trivial
  | equal left right =>
      refine (Keeps.item? left).bind fun first _ => (Keeps.item? right).bind fun second _ => ?_
      split <;> exact .pure trivial
  | look register pretty => exact runLook_keeps register pretty
  | clone register name =>
      refine (Keeps.item? register).bind fun found _ => ?_
      cases found with
      | none => exact .pure trivial
      | some item =>
          dsimp only
          split
          · next clonable =>
              exact (Keeps.holdAll _).bind fun _ _ =>
                bindNull_keeps name (Item.tidy_of_clonable clonable)
          · exact .pure trivial
  | rewrap register name => exact taken tidy fun item => runRewrap_keeps name
  | intoPlain register name => exact taken tidy fun item => runIntoPlain_keeps name
  | unwrap register name => exact taken tidy fun item => runUnwrap_keeps name
  | wrapFuture register name => exact taken tidy fun item => runWrapFuture_keeps name

end ItemStep

/-! ## Calls -/

theorem bindWrapped_keeps (name : String) (once : Bool) {action : Action}
    (fine : action.tidy foreign = true) : Keeps foreign (bindWrapped name once action) Any := by
  refine Keeps.capture.bind fun snapshot _ => Keeps.session.bind fun session _ => ?_
  refine Keeps.numberWrapped.bind fun _ _ => ?_
  have wrapped : (Item.wrapped ⟨session.wrapped, once, snapshot, [], action⟩).Tidy foreign := fine
  exact (Keeps.bindItem name wrapped).bind fun _ _ => .pure trivial

theorem runWrap_keeps (name kind : String) {body : List Step}
    (script : Step.allTidy foreign false body = true) :
    Keeps foreign (runWrap name kind body) Any := by
  unfold runWrap
  split
  case h_7 => exact .pure trivial
  case h_8 => exact .pure trivial
  all_goals first | exact bindWrapped_keeps name _ script | exact bindWrapped_keeps name _ rfl

theorem Action.run_keeps (tidy : interpreter.Tidy foreign) (place : Place) (argument : Value)
    {action : Action} (fine : action.tidy foreign = true) :
    Keeps foreign (action.run interpreter place argument) Any := by
  cases action with
  | thunk body => exact tidy.body place fine
  | function body => exact (tidy.body place fine).bind fun _ _ => .pure trivial
  | counter calls body => exact (tidy.body place fine).bind fun _ _ => .pure trivial
  | pointer =>
      exact (Keeps.emit tidy place .text _).bind fun _ _ => .pure trivial

theorem callLayers_keeps (tidy : interpreter.Tidy foreign) (place : Place) (layers : List Snapshot)
    (argument : Value) {action : Action} (fine : action.tidy foreign = true) :
    Keeps foreign (callLayers interpreter place layers argument action) Any :=
  .insideAll layers (action.run_keeps tidy place argument fine)

theorem keeping_keeps (snapshots : List Snapshot) {body : Run Value}
    (keeps : Keeps foreign body Any) : Keeps foreign (keeping snapshots body) Any :=
  (Keeps.holdAll snapshots).bind fun _ _ => keeps.ensuring (.dropAll snapshots)

theorem runCall_keeps (tidy : interpreter.Tidy foreign) (place : Place) {register : String}
    (own : foreign register = false) (argument : Value) {body : List Step}
    (script : Step.allTidy foreign false body = true) :
    Keeps foreign (runCall interpreter place register argument body) Any := by
  refine (Keeps.item? register).bind fun found fine => ?_
  split
  · exact keeping_keeps _ (.inside _ (tidy.body place script))
  · exact keeping_keeps _ (.inside _ (tidy.body place script))
  · dsimp only
    split
    · exact .pure trivial
    · split
      · exact .pure trivial
      · exact keeping_keeps _ (callLayers_keeps tidy _ _ argument (fine _ own rfl))
  · exact .pure trivial

namespace InvokeStep

/-- One call more does not change what a callable runs. -/
theorem tidy_again {callable : Wrapped} (fine : callable.action.tidy foreign = true) :
    (callable.again?.getD callable).action.tidy foreign = true := by
  unfold Wrapped.again?
  split
  · exact fine
  · split <;> simp_all [Action.tidy]

theorem runCallAgain_keeps (tidy : interpreter.Tidy foreign) (place : Place) (register : String)
    {item : Item} (fine : item.Tidy foreign) :
    Keeps foreign (runCallAgain interpreter place register item) Any := by
  cases item with
  | wrapped callable =>
      refine (callLayers_keeps tidy place _ .null fine).attempt.bind fun outcome _ => ?_
      have again : (Item.wrapped (callable.again?.getD callable)).Tidy foreign := tidy_again fine
      exact (Keeps.bindItem register again).bind fun _ _ => .conclude fun _ _ => trivial
  | _ => exact .pure trivial

theorem runCallOnce_keeps (tidy : interpreter.Tidy foreign) (place : Place) (argument : Value)
    {item : Item} (fine : item.Tidy foreign) :
    Keeps foreign (runCallOnce interpreter place argument item) Any := by
  cases item with
  | wrapped callable =>
      exact (callLayers_keeps tidy place _ argument fine).ensuring (.dropAll _)
  | plain callable =>
      exact (callLayers_keeps tidy place _ argument fine).ensuring (.dropAll _)
  | _ => exact .pure trivial

theorem run_keeps (tidy : interpreter.Tidy foreign) (place : Place) {step : InvokeStep}
    (fine : step.tidy foreign = true) :
    Keeps foreign ((Step.invoke step).run interpreter place) Any := by
  have owned {register : String} (tidy : (!foreign register) = true) :
      foreign register = false := by simpa using tidy
  cases step with
  | callAgain register =>
      exact taking_keeps place (owned fine) fun item => runCallAgain_keeps tidy place register
  | callOnce register argument =>
      exact taking_keeps place (owned fine) fun item => runCallOnce_keeps tidy place argument
  | poll register => exact pollOnce_keeps tidy place (owned fine)
  | block register => exact pollUntil_keeps tidy place (owned fine) 100 0 .null

end InvokeStep

/-! ## Futures -/

theorem runFuture_keeps (name : String) {body : List Step}
    (script : Step.allTidy foreign false body = true) :
    Keeps foreign (runFuture name body) Any := by
  refine Keeps.capture.bind fun snapshot _ => ?_
  have fine : (Item.future (.ofSteps false snapshot body)).Tidy foreign :=
    Future.tidy_ofSteps false snapshot script
  exact (Keeps.bindItem name fine).bind fun _ _ => .pure trivial

theorem runLocalFuture_keeps {name : String} (own : foreign name = false) {body : List Step}
    (script : Step.allTidy foreign false body = true) :
    Keeps foreign (runLocalFuture name body) Any :=
  Keeps.capture.bind fun snapshot _ =>
    (Keeps.keepFuture own (Future.tidy_ofSteps true snapshot script)).bind
      fun _ _ => .pure trivial

/-! ## Threads -/

/-- An act on a worker, which may be the thread itself. -/
theorem Keeps.onWorker {α : Type} {act : Run α} {good : α → Prop} (name : String)
    (keeps : Keeps foreign act good) :
    Keeps foreign (Act.onThread (.worker name) act)
      fun outcome => ∀ value, outcome = .value value → good value := by
  intro context process tidy hosts
  let place : Context := { context with thread := .worker name, unwinding := false }
  have left := keeps place process tidy (tidy.hosts_worker name)
  exact ⟨left.restored.elsewhere hosts, fun outcome same => Outcome.value.inj same ▸ left.value⟩

theorem runWorker_keeps (tidy : interpreter.Tidy foreign) (place : Place) (name : String)
    {body : List Step} (script : Step.allTidy foreign false body = true) :
    Keeps foreign (runWorker interpreter place name body) Any := by
  unfold runWorker
  dsimp only
  split
  · exact .pure trivial
  · have named : Keeps foreign (Run.modify fun session =>
        { session with workers := insertName name session.workers }) Any :=
      .modify (fun _ fine => ⟨fine.receivers, fine.registers, fine.futures, fine.suspended⟩)
        fun _ => ⟨rfl, rfl, rfl, fun _ _ _ => rfl⟩
    refine named.bind fun _ _ => ?_
    exact (Keeps.onWorker name (tidy.body _ script)).bind fun _ _ => .pure trivial

/-- On a thread that is bare the act keeps what is in scope. -/
def KeepsBare {α : Type} (foreign : String → Bool) (act : Run α) (good : α → Prop) : Prop :=
  ∀ (context : Context) (process : Process Session), process.Tidy foreign →
    process.Hosts context.thread → process.client.Bare foreign context.thread →
      Leaves foreign context.thread (process.thread context.thread) process
        (act context process) good

namespace KeepsBare

variable {α β : Type} {good : α → Prop} {fine : β → Prop} {act : Run α}

theorem of_keeps (keeps : Keeps foreign act good) : KeepsBare foreign act good :=
  fun context process tidy hosts _ => keeps context process tidy hosts

theorem bind {next : α → Run β} (first : KeepsBare foreign act good)
    (second : ∀ value, good value → KeepsBare foreign (next value) fine) :
    KeepsBare foreign (act >>= next) fine :=
  fun context process tidy hosts bare =>
    (first context process tidy hosts bare).bind hosts hosts.live
      fun value middle found staged hosted restored =>
        second value found context middle staged hosted (restored.bare _ bare)

/-- All that a bare thread has to give up is its own and tidy. -/
theorem futures : KeepsBare foreign Run.futures fun kept =>
    ∀ name future, kept.find? name = some future →
      foreign name = false ∧ future.Tidy foreign := by
  intro context process tidy hosts bare
  have left := Keeps.futures context process tidy hosts
  refine ⟨left.restored, fun kept same name future found => ?_⟩
  have here : process.client.futuresOf context.thread = kept := Outcome.value.inj same
  cases apart : foreign name with
  | false => exact ⟨rfl, left.value kept same name future apart found⟩
  | true =>
      rw [← here, bare.futures name apart] at found
      contradiction

theorem handles : KeepsBare foreign Run.handles fun named => named = [] := by
  intro context process tidy hosts bare
  refine ⟨.refl tidy _, fun named same => ?_⟩
  have here : process.client.handlesOf context.thread = named := Outcome.value.inj same
  exact here.symm.trans bare.handles

end KeepsBare

theorem endLeftover_keeps (name : String) {ending : Run Unit}
    (keeps : Keeps foreign ending Any) : Keeps foreign (endLeftover name ending) Any := by
  have ended : Keeps foreign (ending *> return Value.null) Any :=
    keeps.bind fun _ _ => .pure trivial
  exact ended.attempt.bind fun _ _ => .addEntry _ _

theorem endFutures_keeps (names : List String) : KeepsBare foreign (endFutures names) Any := by
  induction names with
  | nil => exact .of_keeps (.pure trivial)
  | cons name rest ih =>
      refine KeepsBare.futures.bind fun kept fine => ?_
      cases found : kept.find? name with
      | none => exact ih
      | some future =>
          obtain ⟨own, tidy⟩ := fine name future found
          refine (KeepsBare.of_keeps (.removeFuture own)).bind fun _ _ => ?_
          exact (KeepsBare.of_keeps (endLeftover_keeps name (.dropFuture tidy))).bind
            fun _ _ => ih

/-- A bare thread has only futures left to end. -/
theorem endLeftovers_keeps : KeepsBare foreign endLeftovers Any := by
  refine KeepsBare.futures.bind fun kept _ => (endFutures_keeps _).bind fun _ _ => ?_
  refine KeepsBare.handles.bind fun named none => ?_
  subst none
  exact .of_keeps (.pure trivial)

/-- An outcome that is kept for later has no effect on what is done in between. -/
theorem attempt_close_process {α : Type} (act : Run α) (close : Run Unit) (context : Context)
    (process : Process Session) :
    ((Act.attempt act >>= fun outcome => close >>= fun _ => Act.conclude outcome)
      context process).2 = (close context (act context process).2).2 := by
  cases run : act context process with
  | mk outcome left =>
      simp only [Act.bind_apply, Act.attempt, run]
      cases closed : close context left with
      | mk ending last => cases ending <;> cases outcome <;> rfl

/-- A bare thread is left as it is and then torn down. -/
theorem endThread_leaves {context : Context} {process : Process Session}
    (tidy : process.Tidy foreign) (hosts : process.Hosts context.thread)
    (bare : process.client.Bare foreign context.thread) :
    ∃ (left : Process Session) (after : Thread),
      process.Restored foreign context.thread (process.thread context.thread) left ∧
        Process.Moved context.thread left (endThread context process).2 [] after := by
  have ended := (endLeftovers_keeps context process tidy hosts bare).restored
  cases run : endLeftovers context process with
  | mk outcome left =>
      rw [run] at ended
      cases outcome with
      | panic panic =>
          have same : endThread context process = (.panic panic, left) := by
            rw [endThread, Act.bind_apply, run]
          refine ⟨left, left.thread context.thread, ended, ?_⟩
          rw [same]
          exact .refl _ left
      | value value =>
          have same : endThread context process = Act.tearDown context left := by
            rw [endThread, Act.bind_apply, run]
          obtain ⟨-, moved⟩ :=
            Act.tearDown_moves context.thread (left.thread context.thread) context left rfl rfl
          exact ⟨left, (left.thread context.thread).tornDown, ended, same.symm ▸ moved⟩

/-- A new thread ends with all that it still holds, and is torn down then. -/
theorem runThread_keeps (tidy : interpreter.Tidy foreign) (place : Place)
    {body : List Step} (script : Step.allTidy foreign false body = true) :
    Keeps foreign (runThread interpreter place body) Any := by
  intro context process tidyProcess hosts
  let child := process.child
  let inside : Context := { context with thread := child, unwinding := false }
  have hosted : process.counted.Hosts inside.thread := tidyProcess.hosts_child
  have bare : process.counted.client.Bare foreign inside.thread :=
    have bare := tidyProcess.bare _ (Nat.lt_succ_self _)
    ⟨bare.handles, bare.futures⟩
  have run := (tidy.body (place.onThread child) script inside process.counted
    tidyProcess.counted hosted).restored
  obtain ⟨left, after, ended, tear⟩ :=
    endThread_leaves run.tidy (run.hosts hosted hosted.live) (run.bare _ bare)
  -- The outcome of the body does not matter: the thread is ended in any case.
  have closed := attempt_close_process (interpreter.body (place.onThread child) body) endThread
    inside process.counted
  rw [← closed] at tear
  exact ⟨.of_spawned hosts (run.trans ended) tear, fun _ _ => trivial⟩

/-! ## All steps -/

theorem Keeps.countSteps (count : Session → Nat) :
    Keeps foreign (Run.modify fun session => { session with steps := count session }) Any :=
  .modify (fun _ fine => ⟨fine.receivers, fine.registers, fine.futures, fine.suspended⟩)
    fun _ => ⟨rfl, rfl, rfl, fun _ _ _ => rfl⟩

namespace Step

theorem repeated_keeps {body : Run Value} (keeps : Keeps foreign body Any) (count : Nat)
    (value : Value) : Keeps foreign (run.repeated body count value) Any := by
  induction count generalizing value with
  | zero => exact .pure trivial
  | succ count ih => exact keeps.bind fun value _ => ih value

/-- Every tidy step keeps what is in scope. -/
theorem run_keeps (tidy : interpreter.Tidy foreign) (place : Place) {step : Step}
    (fine : step.tidy foreign false = true) : Keeps foreign (step.run interpreter place) Any := by
  cases step with
  | captor step => exact CaptorStep.run_keeps tidy place fine
  | handle step => exact HandleStep.run_keeps fine
  | item step => exact ItemStep.run_keeps place fine
  | invoke step => exact InvokeStep.run_keeps tidy place fine
  | make id type manner onMessage => exact makeCaptor_keeps id type manner fine
  | scope kind register body => exact runScope_keeps kind register (tidy.body place fine)
  | deep => contradiction
  | wrap name kind body => exact runWrap_keeps name kind fine
  | call register argument body =>
      obtain ⟨own, script⟩ : foreign register = false ∧ Step.allTidy foreign false body = true := by
        simpa [Step.tidy] using fine
      exact runCall_keeps tidy place own argument script
  | future name body => exact runFuture_keeps name fine
  | localFuture name body =>
      obtain ⟨own, script⟩ : foreign name = false ∧ Step.allTidy foreign false body = true := by
        simpa [Step.tidy] using fine
      exact runLocalFuture_keeps own script
  | pause | await | hold | give | unknown => exact .pure trivial
  | raise message => exact .raise _
  | sequence body => exact tidy.body place fine
  | loop count body => exact repeated_keeps (tidy.body place fine) count.toNat .null
  | attempt body => exact (tidy.body place fine).attempt.bind fun _ _ => .pure trivial
  | thread body => exact runThread_keeps tidy place fine
  | worker name body => exact runWorker_keeps tidy place name fine
  | teardown => contradiction

theorem runLimited_keeps (tidy : interpreter.Tidy foreign) (place : Place) {step : Step}
    (fine : step.tidy foreign false = true) :
    Keeps foreign (step.runLimited interpreter place) Any := by
  unfold runLimited
  split
  · exact .pure trivial
  · refine Keeps.session.bind fun session _ => ?_
    dsimp only
    split
    · exact .pure trivial
    · exact (Keeps.countSteps fun _ => session.steps + 1).bind fun _ _ =>
        run_keeps tidy place fine

end Step

/-- At every level of nesting what is tidy keeps what is in scope. -/
theorem Interpreter.ofLevels_tidy (levels : Nat) : (ofLevels levels).Tidy foreign := by
  induction levels with
  | zero =>
      exact ⟨fun _ _ _ => .pure trivial,
        fun _ _ fine => (Keeps.dropFuture fine.bare).bind fun _ _ => .pure trivial⟩
  | succ levels ih =>
      exact ⟨fun place step fine => .recorded place.label (step.runLimited_keeps ih place fine),
        fun place future fine => pollInside_keeps ih place fine⟩

end Ambient.Script
