import Ambient.Proofs.Composition

/-!
# Every step is put together from acts and steps

The families of steps that make items, call them, poll futures and run threads, and from
them all steps at every level of nesting.  A step ends with an entry wherever one runs
inside it, so only its own acts can raise a misuse outside of the steps inside.
-/

namespace Ambient.Script

variable {interpreter : Interpreter} {loose : Bool}

/-! ## Items -/

theorem taking_stepwise (place : Place) (register : String) (fits : Item → Bool)
    {next : Item → Run Value} (rest : ∀ item, Stepwise loose (next item)) :
    Stepwise loose (taking place register fits next) := by
  refine (Stepwise.quiet (.item? register)).bind fun found => ?_
  cases found with
  | none => exact .value _
  | some item =>
      have goes : Stepwise loose (Run.unbind register >>= fun _ => next item) :=
        (Stepwise.quiet (.unbind register)).bind fun _ => rest item
      dsimp only
      split
      · split
        · split
          · exact .value _
          · exact goes
        · exact goes
      · exact .value _

namespace ItemStep

theorem bindNull_stepwise (name : String) (item : Item) : Stepwise loose (bindNull name item) :=
  (Stepwise.quiet (.bindItem name item)).bind fun _ => .value _

theorem runRewrap_stepwise (name : String) (item : Item) :
    Stepwise loose (runRewrap name item) := by
  cases item with
  | plain callable =>
      exact (Stepwise.quiet .capture).bind fun snapshot => .session (fun _ _ => rfl) fun session =>
        .modifying (fun _ _ => rfl) (fun _ => rfl) (bindNull_stepwise name _)
  | _ => exact bindNull_stepwise name _

theorem runIntoPlain_stepwise (name : String) (item : Item) :
    Stepwise loose (runIntoPlain name item) := by
  cases item <;> exact bindNull_stepwise name _

theorem runUnwrap_stepwise (name : String) (item : Item) :
    Stepwise loose (runUnwrap name item) := by
  cases item with
  | wrapped callable =>
      exact (Stepwise.quiet (.release _)).bind fun _ => bindNull_stepwise name _
  | future left =>
      exact (Stepwise.quiet (.release _)).bind fun _ => bindNull_stepwise name _
  | _ => exact bindNull_stepwise name _

theorem runWrapFuture_stepwise (name : String) (item : Item) :
    Stepwise loose (runWrapFuture name item) := by
  cases item with
  | future left => exact (Stepwise.quiet .capture).bind fun _ => bindNull_stepwise name _
  | raw left => exact (Stepwise.quiet .capture).bind fun _ => bindNull_stepwise name _
  | _ => exact bindNull_stepwise name _

theorem runLook_stepwise (register : String) (pretty : Bool) :
    Stepwise loose (runLook register pretty) := by
  refine (Stepwise.quiet .futures).bind fun kept => ?_
  cases kept.find? register with
  | some future => exact .value _
  | none =>
      refine (Stepwise.quiet (.item? register)).bind fun found => ?_
      cases found with
      | none => exact .value _
      | some item => exact .value _

theorem run_stepwise (place : Place) (step : ItemStep) : Stepwise true (step.run place) := by
  cases step with
  | bridge type name =>
      simp only [run]
      split
      · exact .value _
      · refine (Stepwise.aside (.buildBridge _)).bind fun built => ?_
        exact (Stepwise.quiet (.bindItem name _)).bind fun _ => .value _
  | bridgeFrom handle name =>
      refine (Stepwise.quiet (.handle? handle)).bind fun found => ?_
      split
      · split
        · exact bindNull_stepwise name _
        · exact .value _
      · exact .value _
  | snapshot name => exact (Stepwise.quiet .capture).bind fun _ => bindNull_stepwise name _
  | emptySnapshot name => exact bindNull_stepwise name _
  | point name => exact (Stepwise.quiet .buildPoint).bind fun _ => bindNull_stepwise name _
  | emptyPoint name => exact bindNull_stepwise name _
  | snapshotOf register name =>
      refine (Stepwise.quiet (.item? register)).bind fun found => ?_
      split
      · exact .value _
      · exact (Stepwise.quiet (.clone _)).bind fun _ => bindNull_stepwise name _
  | equal left right =>
      refine (Stepwise.quiet (.item? left)).bind fun first =>
        (Stepwise.quiet (.item? right)).bind fun second => ?_
      split <;> exact .value _
  | look register pretty => exact runLook_stepwise register pretty
  | clone register name =>
      refine (Stepwise.quiet (.item? register)).bind fun found => ?_
      cases found with
      | none => exact .value _
      | some item =>
          dsimp only
          split
          · exact (Stepwise.quiet (.holdAll _)).bind fun _ => bindNull_stepwise name _
          · exact .value _
  | rewrap register name => exact taking_stepwise place register _ (runRewrap_stepwise name)
  | intoPlain register name => exact taking_stepwise place register _ (runIntoPlain_stepwise name)
  | unwrap register name => exact taking_stepwise place register _ (runUnwrap_stepwise name)
  | wrapFuture register name => exact taking_stepwise place register _ (runWrapFuture_stepwise name)

end ItemStep

/-! ## Calls -/

theorem bindWrapped_stepwise (name : String) (once : Bool) (action : Action) :
    Stepwise loose (bindWrapped name once action) :=
  (Stepwise.quiet .capture).bind fun _ => .session (fun _ _ => rfl) fun _ =>
    .modifying (fun _ _ => rfl) (fun _ => rfl)
      ((Stepwise.quiet (.bindItem name _)).bind fun _ => .value _)

theorem runWrap_stepwise (name kind : String) (body : List Step) :
    Stepwise loose (runWrap name kind body) := by
  unfold runWrap
  split
  case h_7 => exact .value _
  case h_8 => exact .value _
  all_goals exact bindWrapped_stepwise name _ _

theorem Action.run_stepwise (composed : interpreter.Composed) (place : Place) (argument : Value)
    (action : Action) : Stepwise false (action.run interpreter place argument) := by
  cases action with
  | thunk body => exact composed.body place body
  | function body => exact (composed.body place body).bind fun _ => .value _
  | counter calls body => exact (composed.body place body).bind fun _ => .value _
  | pointer => exact (Stepwise.emit composed place .text _).bind fun _ => .value _

theorem callLayers_stepwise (composed : interpreter.Composed) (place : Place)
    (layers : List Snapshot) (argument : Value) (action : Action) :
    Stepwise true (callLayers interpreter place layers argument action) :=
  .insideAll layers (action.run_stepwise composed place argument).loosen

theorem keeping_stepwise (snapshots : List Snapshot) {body : Run Value}
    (stepwise : Stepwise true body) : Stepwise true (keeping snapshots body) :=
  (Stepwise.quiet (.holdAll snapshots)).bind fun _ =>
    stepwise.ensuring (.tacit (.dropAll snapshots))

theorem runCall_stepwise (composed : interpreter.Composed) (place : Place) (register : String)
    (argument : Value) (body : List Step) :
    Stepwise true (runCall interpreter place register argument body) := by
  refine (Stepwise.quiet (.item? register)).bind fun found => ?_
  split
  · exact keeping_stepwise _ (.inside _ (composed.body place body).loosen)
  · exact keeping_stepwise _ (.inside _ (composed.body place body).loosen)
  · dsimp only
    split
    · exact .value _
    · split
      · exact .value _
      · exact keeping_stepwise _ (callLayers_stepwise composed _ _ argument _)
  · exact .value _

namespace InvokeStep

theorem runCallAgain_stepwise (composed : interpreter.Composed) (place : Place)
    (register : String) (item : Item) :
    Stepwise true (runCallAgain interpreter place register item) := by
  cases item with
  | wrapped callable =>
      exact (callLayers_stepwise composed place _ .null _).recover (.tacit (.bindItem register _))
  | _ => exact .value _

theorem runCallOnce_stepwise (composed : interpreter.Composed) (place : Place) (argument : Value)
    (item : Item) : Stepwise true (runCallOnce interpreter place argument item) := by
  cases item with
  | wrapped callable =>
      exact (callLayers_stepwise composed place _ argument _).ensuring (.tacit (.dropAll _))
  | plain callable =>
      exact (callLayers_stepwise composed place _ argument _).ensuring (.tacit (.dropAll _))
  | _ => exact .value _

end InvokeStep

/-! ## Futures -/

theorem runFuture_stepwise (name : String) (body : List Step) :
    Stepwise loose (runFuture name body) :=
  (Stepwise.quiet .capture).bind fun _ =>
    (Stepwise.quiet (.bindItem name _)).bind fun _ => .value _

theorem runLocalFuture_stepwise (name : String) (body : List Step) :
    Stepwise true (runLocalFuture name body) :=
  (Stepwise.quiet .capture).bind fun _ =>
    (Stepwise.aside (.keepFuture name _)).bind fun _ => .value _

theorem takeAwaited?_tacit (register : String) : Tacit (takeAwaited? register) := by
  refine (Tacit.item? register).bind fun found => ?_
  cases found with
  | none => exact .pure none
  | some item =>
      refine (Tacit.unbind register).bind fun _ => ?_
      cases item with
      | future left => exact .pure _
      | raw left => exact .pure _
      | _ => exact (Tacit.drop _).bind fun _ => .pure none

theorem suspend_tacit (left : Option Future) :
    Tacit (Run.modify fun session => { session with suspended := left }) :=
  .modify (fun _ _ => rfl) fun _ => rfl

/-- What the poll in progress has left so far. -/
def suspended? : Run (Option Future) :=
  return (← Run.session).suspended

theorem suspended?_tacit : Tacit suspended? :=
  .of_session (fun _ session => session.suspended) fun _ _ _ => rfl

theorem takeSuspended?_tacit : Tacit takeSuspended? := by
  have same : takeSuspended? = suspended? >>= fun suspended =>
      (Run.modify fun session => { session with suspended := none }) >>= fun _ =>
        pure suspended := by
    rw [suspended?, bind_assoc]
    rfl
  rw [same]
  exact suspended?_tacit.bind fun _ => (suspend_tacit none).bind fun _ => .pure _

theorem pausing_stepwise (left : Future) : Stepwise loose (pausing left) :=
  (Stepwise.quiet (suspend_tacit _)).bind fun _ => .value _

theorem abandon_aside (future : Future) : Aside (abandon future) := by
  refine (Aside.tacit takeSuspended?_tacit).bind fun suspended => ?_
  cases suspended with
  | some left => exact .dropFuture left
  | none => exact .tacit (.dropAll _)

theorem pollAwaited_stepwise (composed : interpreter.Composed) (place : Place)
    (held : List Handle) (future : Future) :
    Stepwise true (pollAwaited interpreter place held future) := by
  refine (((composed.poll place future).onPanic (abandon_aside future)).onPanic
    (.finishAll held)).bind fun progress => (Stepwise.quiet (suspend_tacit none)).bind fun _ => ?_
  cases progress with
  | pending future => exact .value _
  | ready value => exact (Stepwise.quiet (.dropAll _)).bind fun _ => .value _

theorem follow_stepwise (composed : interpreter.Composed) (place : Place) (layers : List Snapshot)
    (skipped : Nat) (held : List Handle) (value : Value) (instructions : List Instruction) :
    Stepwise true (follow interpreter place layers skipped held value instructions) := by
  induction instructions generalizing skipped held value with
  | nil => cases skipped <;> exact .value _
  | cons instruction rest ih =>
      cases skipped with
      | succ skipped => cases instruction <;> exact ih _ _ _
      | zero =>
          cases instruction with
          | run label step =>
              refine (((composed.step _ step).loosen.holding _).onPanic (.finishAll held)).bind
                fun value => ?_
              exact ih 0 held value
          | pause => exact pausing_stepwise _
          | await register =>
              refine (Stepwise.quiet (takeAwaited?_tacit register)).bind fun found => ?_
              cases found with
              | none => exact ih 0 held _
              | some future =>
                  refine (pollAwaited_stepwise composed place held future).bind fun progress => ?_
                  cases progress with
                  | pending future => exact pausing_stepwise _
                  | ready value => exact ih 0 held value
          | hold kind register =>
              simp only [follow]
              split
              · exact ih 1 held _
              · refine .starting fun found tacit => ?_
                cases found with
                | none => exact ih 1 held _
                | some starting =>
                    refine (Stepwise.quiet (tacit starting rfl)).bind fun handle => ?_
                    exact ih 0 (handle :: held) .null
          | unhold =>
              cases held with
              | nil => exact ih 0 [] value
              | cons handle outer =>
                  refine (Stepwise.aside ((Aside.finish handle).onPanic (.finishAll outer))).bind
                    fun _ => ?_
                  exact ih 0 outer value

theorem advance_stepwise (composed : interpreter.Composed) (place : Place) (future : Future) :
    Stepwise true (advance interpreter place future) := by
  unfold advance
  dsimp only
  split
  · exact follow_stepwise composed place ..
  · refine (pollAwaited_stepwise composed place _ _).bind fun progress => ?_
    cases progress with
    | pending waiting => exact pausing_stepwise _
    | ready value => exact follow_stepwise composed place ..

theorem pollInside_stepwise (composed : interpreter.Composed) (place : Place) (future : Future) :
    Stepwise true (pollInside interpreter place future) :=
  .insideAll _ (advance_stepwise composed place future)

theorem FutureHome.take?_tacit (name : String) : Tacit (FutureHome.take? name) := by
  refine Tacit.futures.bind fun kept => ?_
  cases kept.find? name with
  | some future => exact (Tacit.removeFuture name).bind fun _ => .pure _
  | none =>
      refine (Tacit.item? name).bind fun found => ?_
      split
      · exact (Tacit.unbind name).bind fun _ => .pure _
      · exact .pure none

theorem FutureHome.putBack_aside (home : FutureHome) (name : String) (future : Future) :
    Aside (home.putBack name future) := by
  cases home with
  | thread => exact .keepFuture name future
  | register => exact .tacit (.bindItem name _)

/-- What a poll by name does once the layers have ended. -/
def settling (home : FutureHome) (name : String) (future : Future) : Run Unit := do
  let suspended ← suspended?
  Run.modify fun session => { session with suspended := none }
  match suspended with
  | some left => home.putBack name left
  | none => Snapshot.dropAll future.outer.layers

theorem settling_aside (home : FutureHome) (name : String) (future : Future) :
    Aside (settling home name future) := by
  refine (Aside.tacit suspended?_tacit).bind fun suspended => ?_
  refine (Aside.tacit (suspend_tacit none)).bind fun _ => ?_
  cases suspended with
  | some left => exact home.putBack_aside name left
  | none => exact .tacit (.dropAll _)

theorem settling_conclude (home : FutureHome) (name : String) (future : Future)
    (outcome : Outcome Value) :
    (settling home name future >>= fun _ => Act.conclude outcome) = (do
      match ← takeSuspended? with
      | some left => home.putBack name left
      | none => Snapshot.dropAll future.outer.layers
      Act.conclude outcome) := by
  simp only [settling, takeSuspended?, suspended?, bind_assoc, pure_bind]
  refine congrArg (Run.session >>= ·) (funext fun session => ?_)
  cases session.suspended <;> rfl

theorem pollOnce_stepwise (composed : interpreter.Composed) (place : Place) (name : String) :
    Stepwise true (pollOnce interpreter place name) := by
  refine (Stepwise.quiet (FutureHome.take?_tacit name)).bind fun found => ?_
  cases found with
  | none => exact .value _
  | some kept =>
      obtain ⟨home, future⟩ := kept
      refine (Stepwise.quiet (suspend_tacit none)).bind fun _ => ?_
      have polls : Stepwise true (do
          let progress ← advance interpreter place future
          Run.modify fun session => { session with suspended := progress.remaining? }
          return progress.answer) :=
        (advance_stepwise composed place future).bind fun progress =>
          .modifying (fun _ _ => rfl) (fun _ => rfl) (.value _)
      have settled := (polls.insideAll future.outer.layers).recover
        (settling_aside home name future)
      simp only [settling_conclude] at settled
      exact settled

theorem pollUntil_stepwise (composed : interpreter.Composed) (place : Place) (name : String)
    (attempts polls : Nat) (last : Value) :
    Stepwise true (pollUntil interpreter place name attempts polls last) := by
  induction attempts generalizing polls last with
  | zero => exact .value _
  | succ attempts ih =>
      refine (pollOnce_stepwise composed place name).bind fun last => ?_
      split
      · exact ih (polls + 1) last
      · exact .value _

/-! ## Threads -/

/-- Whatever ends, ends with an entry of its own, and the thread goes on. -/
theorem endLeftover_stepwise (name : String) {ending : Run Unit} (aside : Aside ending) :
    Stepwise false (endLeftover name ending) := by
  have ended : Stepwise true (ending *> return Value.null) :=
    (Stepwise.aside aside).bind fun _ => .value _
  have entered := (ended.entered ("end " ++ name) Run.settled).bind fun _ => Stepwise.value ()
  simp only [bind_assoc, pure_bind, bind_pure_unit] at entered
  exact entered

theorem endFutures_stepwise (names : List String) : Stepwise false (endFutures names) := by
  induction names with
  | nil => exact .value ()
  | cons name rest ih =>
      refine (Stepwise.quiet .futures).bind fun kept => ?_
      cases kept.find? name with
      | none => exact ih
      | some future =>
          refine (Stepwise.quiet (.removeFuture name)).bind fun _ => ?_
          exact (endLeftover_stepwise name (.dropFuture future)).bind fun _ => ih

theorem endHandles_stepwise (handles : List (String × Handle)) :
    Stepwise false (endHandles handles) := by
  induction handles with
  | nil => exact .value ()
  | cons named rest ih =>
      refine (Stepwise.quiet (.setHandles rest)).bind fun _ => ?_
      exact (endLeftover_stepwise named.1 (.finish named.2)).bind fun _ => ih

theorem endLeftovers_stepwise : Stepwise false endLeftovers :=
  (Stepwise.quiet .futures).bind fun _ => (endFutures_stepwise _).bind fun _ =>
    (Stepwise.quiet .handles).bind fun handles => endHandles_stepwise handles

theorem endThread_stepwise : Stepwise false endThread :=
  endLeftovers_stepwise.bind fun _ => .tacit .tearDown

theorem nextThread_stepwise : Stepwise false nextThread :=
  .session (fun _ _ => rfl) fun _ => .modifying (fun _ _ => rfl) (fun _ => rfl) (.value _)

theorem runThread_stepwise (composed : interpreter.Composed) (place : Place) (body : List Step) :
    Stepwise false (runThread interpreter place body) := by
  refine nextThread_stepwise.bind fun thread => ?_
  have inner := (composed.body (place.onThread thread) body).attempt.bind fun outcome =>
    endThread_stepwise.bind fun _ => .tacit (.conclude outcome)
  exact (inner.onThread thread).bind fun _ => .value _

theorem runTeardown_stepwise (composed : interpreter.Composed) (place : Place)
    (body after : List Step) : Stepwise false (runTeardown interpreter place body after) := by
  refine nextThread_stepwise.bind fun thread => ?_
  have inner := (composed.body (place.onThread thread) body).attempt.bind fun outcome =>
    (Stepwise.tacit .tearDown).bind fun _ =>
      (composed.body ((place.onThread thread).below "after") after).attempt.bind fun _ =>
        endLeftovers_stepwise.bind fun _ => .tacit (.conclude outcome)
  exact (inner.onThread thread).bind fun _ => .value _

theorem runWorker_stepwise (composed : interpreter.Composed) (place : Place) (name : String)
    (body : List Step) : Stepwise false (runWorker interpreter place name body) := by
  unfold runWorker
  dsimp only
  split
  · exact .value _
  · have inner := composed.body (place.onWorker (.worker name)) body
    exact .modifying (fun _ _ => rfl) (fun _ => rfl)
      ((inner.onThread (.worker name)).bind fun _ => .value _)

/-! ## All steps -/

namespace Step

theorem repeated_stepwise {body : Run Value} (stepwise : Stepwise loose body) (count : Nat)
    (value : Value) : Stepwise loose (run.repeated body count value) := by
  induction count generalizing value with
  | zero => exact .value value
  | succ count ih => exact stepwise.bind fun value => ih value

theorem run_stepwise (composed : interpreter.Composed) (place : Place) (step : Step) :
    Stepwise true (step.run interpreter place) := by
  have inside (body : List Step) : Stepwise true (interpreter.body place body) :=
    (composed.body place body).loosen
  cases step with
  | captor step => exact step.run_stepwise composed place
  | handle step => exact step.run_stepwise
  | item step => exact step.run_stepwise place
  | invoke step =>
      cases step with
      | callAgain register =>
          exact taking_stepwise place register _
            (InvokeStep.runCallAgain_stepwise composed place register)
      | callOnce register argument =>
          exact taking_stepwise place register _
            (InvokeStep.runCallOnce_stepwise composed place argument)
      | poll register => exact pollOnce_stepwise composed place register
      | block register => exact pollUntil_stepwise composed place register 100 0 .null
  | make id type manner onMessage => exact .quiet (.makeCaptor id type manner onMessage)
  | scope kind register body => exact runScope_stepwise kind register (inside body)
  | deep count kind register body => exact runDeep_stepwise _ kind register (inside body)
  | wrap name kind body => exact runWrap_stepwise name kind body
  | call register argument body => exact runCall_stepwise composed place register argument body
  | future name body => exact runFuture_stepwise name body
  | localFuture name body => exact runLocalFuture_stepwise name body
  | pause | await | hold | give | unknown => exact .value _
  | raise message => exact .quiet (.raise _)
  | sequence body => exact inside body
  | loop count body => exact repeated_stepwise (inside body) count.toNat .null
  | attempt body => exact ((composed.body place body).attempt.bind fun _ => .value _).loosen
  | thread body => exact (runThread_stepwise composed place body).loosen
  | worker name body => exact (runWorker_stepwise composed place name body).loosen
  | teardown body after => exact (runTeardown_stepwise composed place body after).loosen

theorem runLimited_stepwise (composed : interpreter.Composed) (place : Place) (step : Step) :
    Stepwise true (step.runLimited interpreter place) := by
  unfold runLimited
  split
  · exact .value _
  · refine .session (fun _ _ => rfl) fun session => ?_
    dsimp only
    split
    · exact .value _
    · exact .modifying (fun _ _ => rfl) (fun _ => rfl) (run_stepwise composed place step)

end Step

/-- At every level of nesting. -/
theorem Interpreter.ofLevels_composed (levels : Nat) : (ofLevels levels).Composed := by
  induction levels with
  | zero =>
      exact ⟨fun _ _ => .value _,
        fun _ future => (Stepwise.aside (.dropFuture future.bare)).bind fun _ => .value _⟩
  | succ levels ih =>
      exact ⟨fun place step => .recorded place.label (step.runLimited_stepwise ih place),
        fun place future => pollInside_stepwise ih place future⟩

/-! ## Programs -/

namespace Program

theorem steps_stepwise (composed : interpreter.Composed) (index : Nat) (program : List Step) :
    Stepwise false (steps interpreter index program) := by
  induction program generalizing index with
  | nil => exact .value ()
  | cons step rest ih => exact (composed.step _ step).attempt.bind fun _ => ih (index + 1)

theorem endWorkers_stepwise (names : List String) : Stepwise false (endWorkers names) := by
  induction names with
  | nil => exact .value ()
  | cons name rest ih => exact (endThread_stepwise.onThread (.worker name)).bind fun _ => ih

theorem dropItems_tacit (items : List Item) : Tacit (dropItems items) := by
  induction items with
  | nil => exact .pure ()
  | cons item rest ih => exact (Tacit.drop item).bind fun _ => ih

theorem dropRegisters_stepwise : Stepwise false dropRegisters :=
  .session (fun _ _ => rfl) fun _ =>
    .modifying (fun _ _ => rfl) (fun _ => rfl) (.tacit (dropItems_tacit _))

/-- Whatever a program does happens in its steps. -/
theorem act_stepwise (program : List Step) : Stepwise false (act program) :=
  (steps_stepwise (Interpreter.ofLevels_composed _) 0 program).bind fun _ =>
    .session (fun _ _ => rfl) fun _ => (endWorkers_stepwise _).bind fun _ =>
      endThread_stepwise.bind fun _ => dropRegisters_stepwise.bind fun _ => .tacit .alive

end Program

end Ambient.Script
