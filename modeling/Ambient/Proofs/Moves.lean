import Ambient.Act

/-!
# How acts move a thread

Starting and ending scopes reads and writes nothing but the thread it happens
on.  `Moves` says of an act to which state it brings its thread from a given
one, with which value, and which misuses it finds on the way.  Whether a panic
is passing never changes where the thread gets to, only whether the first
misuse found is raised.
-/

namespace Ambient

variable {Client α β : Type}

/-- The misuse that a record warns of. -/
def Record.misuse? : Record → Option Misuse
  | .misused misuse => some misuse
  | _ => none

namespace Process

/-- The misuses recorded so far, in the order in which they were found. -/
def misuses (process : Process Client) : List Misuse :=
  process.log.filterMap Record.misuse?

@[simp] theorem misuses_write (process : Process Client) (record : Record) :
    (process.write record).misuses = process.misuses ++ record.misuse?.toList := by
  cases record <;> simp [misuses, Record.misuse?]

/-- One process comes from another by moving one thread only, which adds some
misuses to the records.  The registry is free to change. -/
structure Moved (id : ThreadId) (process last : Process Client)
    (found : List Misuse) (after : Thread) : Prop where
  own : last.thread id = after
  others : ∀ other, id ≠ other → last.thread other = process.thread other
  client : last.client = process.client
  misuses : last.misuses = process.misuses ++ found

namespace Moved

variable {id : ThreadId} {process next last : Process Client}
  {found more : List Misuse} {after final : Thread}

theorem refl (id : ThreadId) (process : Process Client) :
    Moved id process process [] (process.thread id) :=
  ⟨rfl, fun _ _ => rfl, rfl, by simp⟩

theorem trans (first : Moved id process next found after)
    (second : Moved id next last more final) :
    Moved id process last (found ++ more) final where
  own := second.own
  others other distinct :=
    (second.others other distinct).trans (first.others other distinct)
  client := second.client.trans first.client
  misuses := by rw [second.misuses, first.misuses, List.append_assoc]

/-- Only the registry has changed. -/
theorem of_registry (id : ThreadId) (process : Process Client)
    (registry : Registry) :
    Moved id process { process with registry := registry } [] (process.thread id) :=
  ⟨rfl, fun _ _ => rfl, rfl, by simp [Process.misuses, log]⟩

end Moved

end Process

/-- What becomes of a value once misuses are found: in a debug build the first
of them is raised instead, unless a panic is already passing. -/
def Outcome.raising (context : Context) (value : α) : List Misuse → Outcome α
  | [] => .value value
  | misuse :: _ =>
      if context.build = .debug ∧ context.unwinding = false then
        .panic (.misused misuse)
      else
        .value value

namespace Act

/-- From one state of its thread the act always leads to the same other one
and finds the same misuses. -/
def Moves (act : Act Client α) (id : ThreadId) (before : Thread) (value : α)
    (found : List Misuse) (after : Thread) : Prop :=
  ∀ (context : Context) (process : Process Client),
    context.thread = id → process.thread id = before →
      (act context process).1 = Outcome.raising context value found ∧
        Process.Moved id process (act context process).2 found after

section Rules

variable {id : ThreadId} {before middle after : Thread}
  {found more : List Misuse}

theorem moves_pure (value : α) (id : ThreadId) (thread : Thread) :
    (pure value : Act Client α).Moves id thread value [] thread := by
  rintro context process - rfl
  exact ⟨rfl, .refl id process⟩

theorem bind_of_value {act : Act Client α} {next : α → Act Client β} {value : α}
    {context : Context} {process : Process Client}
    (outcome : (act context process).1 = .value value) :
    (act >>= next) context process =
      next value context (act context process).2 := by
  rw [bind_apply, ← Prod.eta (act context process), outcome]

theorem bind_of_panic {act : Act Client α} (next : α → Act Client β) {panic : Panic}
    {context : Context} {process : Process Client}
    (outcome : (act context process).1 = .panic panic) :
    (act >>= next) context process = (.panic panic, (act context process).2) := by
  rw [bind_apply, ← Prod.eta (act context process), outcome]

theorem ensuring_of_value {act : Act Client α} (close : Act Client Unit) {value : α}
    {context : Context} {process : Process Client}
    (outcome : (act context process).1 = .value value) :
    act.ensuring close context process =
      (close >>= fun _ => pure value) context (act context process).2 := by
  cases run : act context process with
  | mk found next =>
      rw [run] at outcome
      cases outcome
      cases closed : close context next with
      | mk ending last => cases ending <;> simp [ensuring, bind_apply, pure_apply, run, closed]

theorem ensuring_of_panic {act : Act Client α} (close : Act Client Unit) {panic : Panic}
    {context : Context} {process : Process Client}
    (outcome : (act context process).1 = .panic panic) :
    act.ensuring close context process =
      (.panic panic, (unwound close context (act context process).2).2) := by
  unfold ensuring
  rw [← Prod.eta (act context process), outcome]

theorem onPanic_of_value {act : Act Client α} {close : Act Client Unit} {value : α}
    {context : Context} {process : Process Client}
    (outcome : (act context process).1 = .value value) :
    act.onPanic close context process = act context process := by
  unfold onPanic
  rw [← Prod.eta (act context process), outcome]

theorem onPanic_of_panic {act : Act Client α} (close : Act Client Unit) {panic : Panic}
    {context : Context} {process : Process Client}
    (outcome : (act context process).1 = .panic panic) :
    act.onPanic close context process =
      (.panic panic, (unwound close context (act context process).2).2) := by
  unfold onPanic
  rw [← Prod.eta (act context process), outcome]

theorem Moves.bind {act : Act Client α} {next : α → Act Client β}
    {value : α} {result : β}
    (first : act.Moves id before value [] middle)
    (second : (next value).Moves id middle result found after) :
    (act >>= next).Moves id before result found after := by
  intro context process here start
  obtain ⟨outcome, moved⟩ := first context process here start
  obtain ⟨outcome', moved'⟩ := second context (act context process).2 here moved.own
  rw [bind_of_value outcome]
  exact ⟨outcome', moved.trans moved'⟩

/-- What a body ends with in any case comes after it or, if it panics, on the way out. -/
theorem ensuring_eq_onPanic (act : Act Client α) (close : Act Client Unit) :
    act.ensuring close = act.onPanic close >>= fun value => close >>= fun _ => pure value := by
  funext context process
  cases outcome : (act context process).1 with
  | value value =>
      have passed : act.onPanic close context process = act context process :=
        onPanic_of_value outcome
      have ended : (act.onPanic close context process).1 = .value value := by rw [passed, outcome]
      rw [ensuring_of_value close outcome, bind_of_value ended, passed]
  | panic raised =>
      have closed := onPanic_of_panic close outcome
      have ended : (act.onPanic close context process).1 = .panic raised := by rw [closed]
      rw [ensuring_of_panic close outcome, bind_of_panic _ ended, closed]

/-- A close happens on the same thread whatever the body's outcome. -/
theorem ensuring_process (body : Act Client α) (close : Act Client Unit)
    (context : Context) (process : Process Client) :
    ∃ place : Context, place.thread = context.thread ∧
      (body.ensuring close context process).2 =
        (close place (body context process).2).2 := by
  cases run : body context process with
  | mk outcome next =>
      cases outcome with
      | value value =>
          refine ⟨context, rfl, ?_⟩
          cases closed : close context next with
          | mk outcome last => cases outcome <;> simp [Act.ensuring, run, closed]
      | panic panic =>
          refine ⟨{ context with unwinding := true }, rfl, ?_⟩
          simp only [Act.ensuring, run, unwound]

theorem Moves.close {close : Act Client Unit}
    (moves : close.Moves id before () found after) (body : Act Client α)
    {context : Context} {process : Process Client} (here : context.thread = id)
    (left : (body context process).2.thread id = before) :
    Process.Moved id (body context process).2
      (body.ensuring close context process).2 found after := by
  obtain ⟨place, same, run⟩ := ensuring_process body close context process
  rw [run]
  exact (moves place _ (same.trans here) left).2

/-- A panic of the body goes on; a value is lost to a misuse that is raised. -/
theorem Moves.close_outcome {close : Act Client Unit}
    (moves : close.Moves id before () found after) (body : Act Client α)
    {context : Context} {process : Process Client} (here : context.thread = id)
    (left : (body context process).2.thread id = before) :
    (body.ensuring close context process).1 =
      match (body context process).1 with
      | .value value => Outcome.raising context value found
      | .panic panic => .panic panic := by
  cases run : body context process with
  | mk outcome next =>
      rw [run] at left
      cases outcome with
      | value value =>
          have outcome := (moves context next here left).1
          cases closed : close context next with
          | mk outcome' last =>
              rw [closed] at outcome
              subst outcome
              cases found with
              | nil => simp [Act.ensuring, run, closed, Outcome.raising]
              | cons misuse rest =>
                  by_cases raised : context.build = .debug ∧ context.unwinding = false <;>
                    simp [Act.ensuring, run, closed, Outcome.raising, raised]
      | panic panic => simp [Act.ensuring, run]

/-- Two closes in a row are one close of both. -/
theorem ensuring_assoc (body : Act Client α) (first second : Act Client Unit) :
    (body.ensuring first).ensuring second =
      body.ensuring (first.ensuring second) := by
  funext context process
  cases run : body context process with
  | mk outcome next =>
      cases outcome with
      | value value =>
          cases closed : first context next with
          | mk outcome last =>
              cases outcome with
              | value done =>
                  cases ended : second context last with
                  | mk outcome final =>
                      cases outcome <;> simp only [Act.ensuring, run, closed, ended]
              | panic panic => simp only [Act.ensuring, run, closed]
      | panic panic =>
          cases closed : first { context with unwinding := true } next with
          | mk outcome last =>
              cases outcome with
              | value done =>
                  cases ended : second { context with unwinding := true } last with
                  | mk outcome final =>
                      cases outcome <;>
                        simp only [Act.ensuring, run, unwound, closed, ended]
              | panic panic => simp only [Act.ensuring, run, unwound, closed]

theorem Moves.ensuring {act : Act Client α} {close : Act Client Unit} {value : α}
    (first : act.Moves id before value found middle)
    (second : close.Moves id middle () more after) :
    (act.ensuring close).Moves id before value (found ++ more) after := by
  intro context process here start
  obtain ⟨outcome, moved⟩ := first context process here start
  refine ⟨?_, moved.trans (second.close act here moved.own)⟩
  rw [second.close_outcome act here moved.own, outcome]
  cases found with
  | nil => rfl
  | cons misuse rest =>
      by_cases raised : context.build = .debug ∧ context.unwinding = false <;>
        cases more <;> simp [Outcome.raising, raised]

end Rules

/-! ## Single acts -/

section Single

variable (id : ThreadId) (thread : Thread)

theorem thread_moves : (Act.thread : Act Client Thread).Moves id thread thread [] thread := by
  rintro context process rfl rfl
  exact ⟨rfl, .refl _ process⟩

theorem current_moves (type : CaptorType) :
    (current type : Act Client _).Moves id thread (thread.current type) [] thread :=
  (thread_moves id thread).bind (moves_pure _ id thread)

theorem chain_moves : (chain : Act Client _).Moves id thread thread.chain [] thread :=
  (thread_moves id thread).bind (moves_pure _ id thread)

theorem modifyThread_moves (change : Thread → Thread) :
    (modifyThread change : Act Client Unit).Moves id thread () [] (change thread) := by
  rintro context process rfl rfl
  refine ⟨rfl, ?_, fun other distinct => ?_, rfl, by simp [modifyThread, Process.misuses]⟩
  · simp [modifyThread]
  · simp [modifyThread, distinct]

theorem modifyRegistry_moves (change : Registry → Registry) :
    (modifyRegistry change : Act Client Unit).Moves id thread () [] thread := by
  rintro context process - rfl
  exact ⟨rfl, .of_registry id process _⟩

theorem hold_moves (chain : Chain) :
    (hold chain : Act Client Unit).Moves id thread () [] thread :=
  modifyRegistry_moves id thread _

theorem release_moves (chain : Chain) :
    (release chain : Act Client Unit).Moves id thread () [] thread :=
  modifyRegistry_moves id thread _

/-- A description is no misuse. -/
theorem describe_moves {record : Record} (fine : record.misuse? = none) :
    (describe record : Act Client Unit).Moves id thread () [] thread := by
  rintro ⟨build, _, _, _⟩ process - rfl
  cases build with
  | debug => exact ⟨rfl, rfl, fun _ _ => rfl, rfl, by simp [describe, fine]⟩
  | release => exact ⟨rfl, .refl id process⟩

theorem report_moves (misuse : Misuse) :
    (report misuse : Act Client Unit).Moves id thread () [misuse] thread := by
  rintro context process - rfl
  simp only [report, Outcome.raising]
  split <;> exact ⟨rfl, rfl, fun _ _ => rfl, rfl, by simp [Record.misuse?]⟩

theorem replaceCurrent_moves (type : CaptorType) (captor : Option CaptorId) :
    (replaceCurrent type captor : Act Client _).Moves id thread
      (thread.current type) [] (thread.setCurrent type captor) :=
  (current_moves id thread type).bind
    ((modifyThread_moves id thread _).bind (moves_pure _ id _))

theorem replaceChain_moves (chain : Chain) :
    (replaceChain chain : Act Client _).Moves id thread thread.chain []
      (thread.setChain chain) := by
  refine (thread_moves id thread).bind ((modifyThread_moves id thread _).bind ?_)
  cases thread.live with
  | true => exact moves_pure _ id _
  | false => exact (release_moves id _ chain).bind (moves_pure _ id _)

theorem tearDown_moves :
    (tearDown : Act Client Unit).Moves id thread () [] thread.tornDown :=
  (chain_moves id thread).bind
    ((modifyThread_moves id thread _).bind (release_moves id _ _))

/-- A misuse is reported exactly if a check fails. -/
theorem unless_report_moves (fine : Prop) [Decidable fine] (misuse : Misuse) :
    (do unless fine do report misuse : Act Client Unit).Moves id thread ()
      (if fine then [] else [misuse]) thread := by
  by_cases fine
  case pos passed => simpa [passed] using moves_pure () id thread
  case neg failed => simpa [failed] using report_moves id thread misuse

end Single

end Act

end Ambient
