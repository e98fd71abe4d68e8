import Ambient.Proofs.Holdings

/-!
# Polls of tidy futures

A future that follows tidy instructions has handles open only up to its next pause.
Between its start and its end a poll is a matter of the handles that it holds: as long
as ending them leads back to where the poll has started, it does not matter at which
of its instructions a panic passes.
-/

namespace Ambient

/-- Ending the handles, from the first on, finds nothing out of order and leads back to
where a thread showed the same as at a certain point. -/
def Handle.Unwinds (base : Thread) : List Handle → Thread → Prop
  | [], thread => base.Alike thread
  | handle :: rest, thread =>
      handle.faults thread = [] ∧ Unwinds base rest (handle.closed thread)

namespace Handle.Unwinds

variable {base thread other : Thread} {held : List Handle}

theorem alike (unwinds : Unwinds base held thread) (same : thread.Alike other) :
    Unwinds base held other := by
  induction held generalizing thread other with
  | nil => exact Thread.Alike.trans unwinds same
  | cons handle rest ih =>
      obtain ⟨silent, outer⟩ := unwinds
      exact ⟨(handle.faults_alike same).trans silent, ih outer (handle.closed_alike same)⟩

theorem live (unwinds : Unwinds base held thread) (live : thread.live) : base.live := by
  induction held generalizing thread with
  | nil => exact (Thread.Alike.live unwinds).symm.trans live
  | cons handle rest ih => exact ih unwinds.2 ((handle.live_closed thread).trans live)

theorem opening (unwinds : Unwinds base held thread) (live : thread.live) (opening : Opening)
    (id : ThreadId) :
    Unwinds base (opening.handle id thread :: held) (opening.entered id thread) := by
  obtain ⟨silent, back⟩ := Opening.ends live (.refl (opening.entered id thread))
  exact ⟨silent, unwinds.alike back⟩

theorem finishAll (unwinds : Unwinds base held thread) (id : ThreadId) :
    ∃ last : Thread, base.Alike last ∧
      (Handle.finishAll held : Act Script.Session Unit).Moves id thread () [] last := by
  induction held generalizing thread with
  | nil => exact ⟨thread, unwinds, Act.moves_pure () id thread⟩
  | cons handle rest ih =>
      obtain ⟨silent, outer⟩ := unwinds
      obtain ⟨last, alike, moves⟩ := ih outer
      have first : (handle.finish : Act Script.Session Unit).Moves id thread () _ _ :=
        handle.finish_moves id thread
      rw [silent] at first
      exact ⟨last, alike, first.ensuring moves⟩

end Handle.Unwinds

namespace Script

variable {foreign : String → Bool}

/-- Wherever the handles held unwind, the act ends as after they have been ended. -/
def Unwinding {α : Type} (foreign : String → Bool) (held : List Handle) (act : Run α)
    (good : α → Prop) : Prop :=
  ∀ (base : Thread) (context : Context) (process : Process Session), process.Tidy foreign →
    process.Hosts context.thread →
      Handle.Unwinds base held (process.thread context.thread) →
        Leaves foreign context.thread base process (act context process) good

namespace Unwinding

variable {α β : Type} {held : List Handle} {good : α → Prop} {fine : β → Prop}
  {act : Run α} {next : α → Run β}

theorem of_keeps (keeps : Keeps foreign act good) : Unwinding foreign [] act good := by
  intro base context process tidy hosts unwinds
  have left := keeps context process tidy hosts
  have restored := left.restored
  exact ⟨⟨Thread.Alike.trans unwinds restored.own, restored.others, restored.spawned,
    restored.bare, restored.warnings, restored.tidy⟩, left.value⟩

theorem reading {next : Session → Run β}
    (rest : ∀ session : Session, session.Tidy foreign →
      Unwinding foreign held (next session) fine) :
    Unwinding foreign held (Run.session >>= next) fine :=
  fun base context process tidy hosts unwinds =>
    rest process.client tidy.session base context process tidy hosts unwinds

/-- An act that keeps what is in scope, with the handles ended if it panics. -/
theorem andThen (first : Keeps foreign act good)
    (rest : ∀ value, good value → Unwinding foreign held (next value) fine) :
    Unwinding foreign held (act.onPanic (Handle.finishAll held) >>= next) fine := by
  intro base context process tidy hosts unwinds
  have left := first context process tidy hosts
  have live : base.live := unwinds.live hosts.live
  rw [Act.bind_apply]
  cases run : act context process with
  | mk outcome middle =>
      rw [run] at left
      have restored := left.restored
      have staged := restored.hosts hosts hosts.live
      have still := unwinds.alike restored.own
      cases outcome with
      | value value =>
          simp only [Act.onPanic, run]
          have after := rest value (left.value value rfl) base context middle restored.tidy staged
            still
          exact ⟨restored.followed after.restored, after.value⟩
      | panic panic =>
          obtain ⟨last, alike, moves⟩ := still.finishAll context.thread
          obtain ⟨-, moved⟩ := moves { context with unwinding := true } middle rfl rfl
          simp only [Act.onPanic, run, Act.unwound]
          exact ⟨restored.leaving hosts hosts.live moved alike live, by rintro _ ⟨⟩⟩

/-- One more handle is held from here on. -/
theorem opening (opening : Opening) {next : Handle → Run β}
    (rest : ∀ handle, Unwinding foreign (handle :: held) (next handle) fine) :
    Unwinding foreign held (opening.start >>= next) fine := by
  intro base context process tidy hosts unwinds
  let thread := process.thread context.thread
  obtain ⟨outcome, enter⟩ := opening.start_moves context.thread thread context process rfl rfl
  have inside : (opening.entered context.thread thread).live :=
    (opening.live_entered context.thread thread).trans hosts.live
  have after := rest (opening.handle context.thread thread) base context
    (opening.start context process).2 (tidy.moved hosts enter inside)
    (hosts.moved enter inside)
    (enter.own.symm ▸ unwinds.opening hosts.live opening context.thread)
  rw [Act.bind_of_value outcome]
  exact ⟨(Process.Restored.entering tidy hosts enter inside).followed after.restored, after.value⟩

/-- The handle opened last ends here. -/
theorem ending {handle : Handle} {next : Unit → Run β}
    (rest : Unwinding foreign held (next ()) fine) :
    Unwinding foreign (handle :: held)
      (handle.finish.onPanic (Handle.finishAll held) >>= next) fine := by
  intro base context process tidy hosts unwinds
  let thread := process.thread context.thread
  obtain ⟨silent, outer⟩ := unwinds
  have moves : (handle.finish : Run Unit).Moves context.thread thread () _ _ :=
    handle.finish_moves context.thread thread
  rw [silent] at moves
  obtain ⟨outcome, leave⟩ := moves context process rfl rfl
  have live : (handle.closed thread).live := (handle.live_closed thread).trans hosts.live
  have passed : handle.finish.onPanic (Handle.finishAll held) context process =
      handle.finish context process :=
    Act.onPanic_of_value outcome
  have after := rest base context _ (tidy.moved hosts leave live) (hosts.moved leave live)
    (leave.own.symm ▸ outer)
  rw [Act.bind_of_value (passed ▸ outcome), passed]
  exact ⟨(Process.Restored.entering tidy hosts leave live).followed after.restored, after.value⟩

end Unwinding

theorem Keeps.of_unwinding {α : Type} {act : Run α} {good : α → Prop}
    (unwinding : Unwinding foreign [] act good) : Keeps foreign act good :=
  fun context process tidy hosts => unwinding _ context process tidy hosts (.refl _)

/-- Whatever can be started is a handle that is opened. -/
theorem HandleKind.starting?_eq {kind : HandleKind} {item : Item} {starting : Run Handle}
    (found : kind.starting? item = some starting) :
    ∃ opening : Opening, starting = opening.start := by
  cases kind <;> cases item <;> simp only [starting?, Option.some.injEq, reduceCtorEq] at found
  case scoped.captor captor channel => exact ⟨.capture channel.captorType captor, found.symm⟩
  case auto.captor captor channel => exact ⟨.crosser channel.captorType captor, found.symm⟩
  case cross.bridge bridge => exact ⟨.crossing bridge, found.symm⟩

/-- Looking for the way to start a handle is no reason for a panic. -/
theorem Unwinding.starting {held : List Handle} {kind : HandleKind} {register : String}
    {α : Type} {next : Option (Run Handle) → Run α} {good : α → Prop}
    (rest : ∀ found, (∀ starting, found = some starting →
      ∃ opening : Opening, starting = opening.start) → Unwinding foreign held (next found) good) :
    Unwinding foreign held (starting? kind register >>= next) good := by
  have looked : starting? kind register >>= next = Run.session >>= fun session =>
      next ((session.registers.find? register).bind kind.starting?) := rfl
  rw [looked]
  refine .reading fun session _ => rest _ fun starting same => ?_
  obtain ⟨item, -, started⟩ := Option.bind_eq_some_iff.mp same
  exact HandleKind.starting?_eq started

/-- An interpreter that keeps what is in scope where what it runs is tidy. -/
structure Interpreter.Tidy (foreign : String → Bool) (interpreter : Interpreter) : Prop where
  step : ∀ place step, step.tidy foreign false = true →
    Keeps foreign (interpreter.step place step) Any
  poll : ∀ place future, future.Tidy foreign →
    Keeps foreign (interpreter.poll place future) (Progress.Tidy foreign future.outer.layers)

section

variable {interpreter : Interpreter}

theorem Interpreter.Tidy.steps (tidy : interpreter.Tidy foreign) (place : Place) {body : List Step}
    (fine : Step.allTidy foreign false body = true) (index : Nat) (value : Value) :
    Keeps foreign (interpreter.steps place index value body) Any := by
  induction body generalizing index value with
  | nil => exact .pure trivial
  | cons step rest ih =>
      simp only [Step.allTidy, Bool.and_eq_true] at fine
      exact (tidy.step _ step fine.1).bind fun value _ => ih fine.2 (index + 1) value

theorem Interpreter.Tidy.body (tidy : interpreter.Tidy foreign) (place : Place) {body : List Step}
    (fine : Step.allTidy foreign false body = true) :
    Keeps foreign (interpreter.body place body) Any :=
  tidy.steps place fine 0 .null

theorem takeAwaited?_keeps {register : String} (own : foreign register = false) :
    Keeps foreign (takeAwaited? register) fun found => ∀ future, found = some future →
      future.Tidy foreign := by
  refine (Keeps.item? register).bind fun found fine => ?_
  cases found with
  | none => exact .pure nofun
  | some item =>
      refine (Keeps.unbind register).bind fun _ _ => ?_
      have tidy := fine item own rfl
      cases item with
      | future left => exact .pure fun _ same => Option.some.inj same ▸ tidy
      | raw left => exact .pure fun _ same => Option.some.inj same ▸ tidy
      | _ => exact (Keeps.drop _).bind fun _ _ => .pure nofun

theorem Keeps.suspend {left : Option Future}
    (fine : ∀ future, left = some future → future.Tidy foreign) :
    Keeps foreign (Run.modify fun session => { session with suspended := left }) Any :=
  .modify (fun _ tidy => tidy.suspend fine) fun _ => ⟨rfl, rfl, rfl, fun _ _ _ => rfl⟩

theorem Keeps.unsuspend :
    Keeps foreign (Run.modify fun session => { session with suspended := none }) Any :=
  .suspend nofun

theorem pausing_keeps {left : Future} {layers : List Snapshot}
    (fine : Progress.Tidy foreign layers (.pending left)) :
    Keeps foreign (pausing left) (Progress.Tidy foreign layers) :=
  (Keeps.suspend fun _ same => Option.some.inj same ▸ fine.1).bind fun _ _ => .pure fine

theorem takeSuspended?_keeps : Keeps foreign takeSuspended?
    fun suspended => ∀ left, suspended = some left → left.Tidy foreign :=
  Keeps.session.bind fun _ tidySession => Keeps.unsuspend.bind fun _ _ =>
    .pure tidySession.suspended

theorem abandon_keeps (future : Future) : Keeps foreign (abandon future) Any := by
  refine takeSuspended?_keeps.bind fun suspended fine => ?_
  cases suspended with
  | none => exact .dropAll _
  | some left => exact .dropFuture (fine left rfl)

theorem pollAwaited_keeps (tidy : interpreter.Tidy foreign) (place : Place) {future : Future}
    (fine : future.Tidy foreign) :
    Keeps foreign (pollAwaited interpreter place [] future)
      (Progress.Tidy foreign future.outer.layers) := by
  refine (((tidy.poll place future fine).onPanic (abandon_keeps future)).onPanic
    (.pure trivial)).bind fun progress left => Keeps.unsuspend.bind fun _ _ => ?_
  cases progress with
  | pending future => exact .pure left
  | ready value => exact (Keeps.dropAll _).bind fun _ _ => .pure trivial

/-- Tidy instructions are followed with the handles held accounted for at every one of
them, and none is held when they pause or are over. -/
theorem follow_unwinding (tidy : interpreter.Tidy foreign) (place : Place) (layers : List Snapshot)
    (instructions : List Instruction) {skipped : Nat} {held : List Handle} {value : Value}
    (fine : Instruction.tidy foreign (skipped + held.length) instructions = true) :
    Unwinding foreign held (follow interpreter place layers skipped held value instructions)
      (Progress.Tidy foreign layers) := by
  induction instructions generalizing skipped held value with
  | nil =>
      -- A body that is skipped would still have to end, and so would a handle.
      obtain ⟨rfl, rfl⟩ : skipped = 0 ∧ held = [] := by simpa [Instruction.tidy] using fine
      exact .of_keeps (.pure trivial)
  | cons instruction rest ih =>
      cases skipped with
      | succ skipped =>
          rw [Nat.succ_add] at fine
          cases instruction with
          | run label step =>
              simp only [Instruction.tidy, Bool.and_eq_true] at fine
              exact ih (by rw [Nat.succ_add]; exact fine.2)
          | pause => simp [Instruction.tidy] at fine
          | await register => simp [Instruction.tidy] at fine
          | hold kind register => exact ih (by rw [Nat.succ_add, Nat.succ_add]; exact fine)
          | unhold => exact ih fine
      | zero =>
          rw [Nat.zero_add] at fine
          cases instruction with
          | run label step =>
              simp only [Instruction.tidy, Bool.and_eq_true] at fine
              exact .andThen ((tidy.step _ step fine.1).holding _) fun value _ =>
                ih (by rw [Nat.zero_add]; exact fine.2)
          | pause =>
              simp only [Instruction.tidy, Bool.and_eq_true, decide_eq_true_eq] at fine
              obtain ⟨none, fine⟩ := fine
              obtain rfl := List.length_eq_zero_iff.mp none
              exact .of_keeps (pausing_keeps (Progress.tidy_paused fine nofun))
          | await register =>
              simp only [Instruction.tidy, Bool.and_eq_true, Bool.not_eq_true',
                decide_eq_true_eq] at fine
              obtain ⟨⟨own, none⟩, fine⟩ := fine
              obtain rfl := List.length_eq_zero_iff.mp none
              have goes (value : Value) : Keeps foreign
                  (follow interpreter place layers 0 [] value rest)
                  (Progress.Tidy foreign layers) :=
                .of_unwinding (ih fine)
              refine .of_keeps ((takeAwaited?_keeps own).bind fun found tidyFound => ?_)
              cases found with
              | none => exact goes _
              | some future =>
                  have next := tidyFound future rfl
                  refine (pollAwaited_keeps tidy place next).bind fun progress left => ?_
                  cases progress with
                  | pending waiting => exact pausing_keeps (Progress.tidy_paused fine left.1)
                  | ready value => exact goes value
          | hold kind register =>
              have skips (value : Value) : Unwinding foreign held
                  (follow interpreter place layers 1 held value rest)
                  (Progress.Tidy foreign layers) :=
                ih (by rw [Nat.add_comm]; exact fine)
              simp only [follow]
              cases HandleKind.ofName? kind with
              | none => exact skips _
              | some kind =>
                  refine .starting fun found opens => ?_
                  cases found with
                  | none => exact skips _
                  | some starting =>
                      obtain ⟨opening, rfl⟩ := opens starting rfl
                      exact .opening opening fun handle =>
                        ih (by rw [Nat.zero_add]; exact fine)
          | unhold =>
              cases held with
              | nil => simp [Instruction.tidy] at fine
              | cons handle outer => exact .ending (ih (by rw [Nat.zero_add]; exact fine))

theorem advance_keeps (tidy : interpreter.Tidy foreign) (place : Place) {future : Future}
    (fine : future.Tidy foreign) :
    Keeps foreign (advance interpreter place future)
      (Progress.Tidy foreign future.outer.layers) := by
  obtain ⟨⟨layers, rest, value, held⟩, awaited⟩ := future
  obtain ⟨rfl, instructions⟩ : held = [] ∧ Instruction.tidy foreign 0 rest = true :=
    ⟨fine.outer.held, fine.outer.rest⟩
  have follows (value : Value) :
      Keeps foreign (follow interpreter place layers 0 [] value rest)
        (Progress.Tidy foreign layers) :=
    .of_unwinding (follow_unwinding tidy place layers rest instructions)
  cases awaited with
  | nil => exact follows value
  | cons inner others =>
      have waiting : Future.Tidy foreign ⟨inner, others⟩ := (List.forall_mem_cons.mp fine).2
      refine (pollAwaited_keeps tidy place waiting).bind fun progress left => ?_
      cases progress with
      | pending left' => exact pausing_keeps (Progress.tidy_paused instructions left.1)
      | ready value => exact follows value

/-- A poll leaves a thread as it finds it, whether it pauses, is over or panics. -/
theorem pollInside_keeps (tidy : interpreter.Tidy foreign) (place : Place) {future : Future}
    (fine : future.Tidy foreign) :
    Keeps foreign (pollInside interpreter place future)
      (Progress.Tidy foreign future.outer.layers) :=
  .insideAll future.outer.layers (advance_keeps tidy place fine)

/-! ## Polls by name -/

theorem FutureHome.take?_keeps {name : String} (own : foreign name = false) :
    Keeps foreign (FutureHome.take? name) fun found => ∀ home future, found = some (home, future) →
      future.Tidy foreign := by
  refine Keeps.futures.bind fun kept fine => ?_
  cases found : kept.find? name with
  | some future =>
      refine (Keeps.removeFuture own).bind fun _ _ => .pure fun home other same => ?_
      obtain ⟨-, rfl⟩ := Prod.mk.inj (Option.some.inj same)
      exact fine name future own found
  | none =>
      refine (Keeps.item? name).bind fun found tidyFound => ?_
      cases found with
      | none => exact .pure nofun
      | some item =>
          cases item with
          | future left =>
              refine (Keeps.unbind name).bind fun _ _ => .pure fun home other same => ?_
              obtain ⟨-, rfl⟩ := Prod.mk.inj (Option.some.inj same)
              exact tidyFound _ own rfl
          | _ => exact .pure nofun

theorem FutureHome.putBack_keeps (home : FutureHome) {name : String}
    (own : foreign name = false) {future : Future}
    (fine : future.Tidy foreign) : Keeps foreign (home.putBack name future) Any := by
  cases home with
  | thread => exact .keepFuture own fine
  | register => exact .bindItem name fine

/-- What a poll by name does between the start and the end of the layers. -/
def polling (interpreter : Interpreter) (place : Place) (future : Future) : Run Value := do
  let progress ← advance interpreter place future
  Run.modify fun session => { session with suspended := progress.remaining? }
  return progress.answer

theorem polling_keeps (tidy : interpreter.Tidy foreign) (place : Place) {future : Future}
    (fine : future.Tidy foreign) : Keeps foreign (polling interpreter place future) Any := by
  refine (advance_keeps tidy place fine).bind fun progress left => ?_
  refine (Keeps.suspend fun other same => ?_).bind fun _ _ => .pure trivial
  cases progress with
  | pending waiting => exact Option.some.inj same ▸ left.1
  | ready value => contradiction

theorem pollOnce_keeps (tidy : interpreter.Tidy foreign) (place : Place) {name : String}
    (own : foreign name = false) : Keeps foreign (pollOnce interpreter place name) Any := by
  refine (FutureHome.take?_keeps own).bind fun found tidyFound => ?_
  cases found with
  | none => exact .pure trivial
  | some named =>
      obtain ⟨home, future⟩ := named
      have fine : future.Tidy foreign := tidyFound home future rfl
      refine Keeps.unsuspend.bind fun _ _ => ?_
      have polls := Keeps.insideAll future.outer.layers (polling_keeps tidy place fine)
      refine polls.attempt.bind fun outcome _ => ?_
      refine takeSuspended?_keeps.bind fun suspended fine => ?_
      cases suspended with
      | none =>
          exact (Keeps.dropAll _).bind fun _ _ => .conclude fun _ _ => trivial
      | some left =>
          exact (home.putBack_keeps own (fine left rfl)).bind
            fun _ _ => .conclude fun _ _ => trivial

theorem pollUntil_keeps (tidy : interpreter.Tidy foreign) (place : Place) {name : String}
    (own : foreign name = false) (attempts polls : Nat) (last : Value) :
    Keeps foreign (pollUntil interpreter place name attempts polls last) Any := by
  induction attempts generalizing polls last with
  | zero => exact .pure trivial
  | succ attempts ih =>
      refine (pollOnce_keeps tidy place own).bind fun last _ => ?_
      split
      · exact ih (polls + 1) last
      · exact .pure trivial

end

end Script

end Ambient
