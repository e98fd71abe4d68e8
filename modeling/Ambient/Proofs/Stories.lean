import Ambient.Proofs.Moves
import Ambient.Script.Session

/-!
# Stories

All that happens in a process makes up its story.  A release build writes down the
misuses but no descriptions, which makes its stories terse.  Apart from what is
described and raised nothing depends on the build, and nothing at all on the story:
tacit acts look at neither.
-/

namespace Ambient

/-- Whether both builds write a record. -/
def Record.lasting (record : Record) : Bool :=
  record.misuse?.isSome

/-- The same place in another build. -/
def Context.inBuild (context : Context) (build : Build) : Context :=
  { context with build := build }

namespace Script

/-! ## Happenings -/

namespace Happening

/-- The misuse that a happening warns of. -/
def misuse? : Happening → Option Misuse
  | .wrote record => record.misuse?
  | _ => none

@[simp] theorem misuse?_wrote (record : Record) :
    (Happening.wrote record).misuse? = record.misuse? :=
  rfl

/-- Whether it happens in both builds. -/
def lasting : Happening → Bool
  | .wrote record => record.lasting
  | _ => true

/-- What a captor logs in a happening. -/
def delivery? (captor : CaptorId) : Happening → Option Value
  | .logged other value => if other = captor then some value else none
  | _ => none

end Happening

/-- The misuses in a story, in the order in which they were found. -/
def misuses (story : List Happening) : List Misuse :=
  story.filterMap Happening.misuse?

/-- What a captor logs in a story. -/
def deliveries (captor : CaptorId) (story : List Happening) : List Value :=
  story.filterMap (Happening.delivery? captor)

/-- A story without the records that only a debug build has. -/
def terse (story : List Happening) : List Happening :=
  story.filter Happening.lasting

section

variable (first second : List Happening)

@[simp] theorem misuses_append : misuses (first ++ second) = misuses first ++ misuses second :=
  List.filterMap_append

@[simp] theorem terse_append : terse (first ++ second) = terse first ++ terse second :=
  List.filter_append ..

@[simp] theorem deliveries_append (captor : CaptorId) :
    deliveries captor (first ++ second) = deliveries captor first ++ deliveries captor second :=
  List.filterMap_append

/-- What a terse story leaves out warns of nothing. -/
theorem misuses_terse : misuses (terse first) = misuses first := by
  induction first with
  | nil => rfl
  | cons happening rest ih =>
      simp only [misuses, terse] at ih
      cases happening with
      | wrote record =>
          cases record <;>
            simp [misuses, terse, List.filter_cons, List.filterMap_cons, Happening.lasting,
              Record.lasting, Record.misuse?, ih]
      | logged | ended =>
          simp [misuses, terse, List.filter_cons, List.filterMap_cons, Happening.lasting,
            Happening.misuse?, ih]

/-- The first misuse among some records. -/
theorem misuses_records {records : List Record} (loud : misuses (records.map .wrote) ≠ []) :
    ∃ (front : List Record) (misuse : Misuse) (rest : List Record),
      records = front ++ .misused misuse :: rest ∧ misuses (front.map .wrote) = [] := by
  induction records with
  | nil => exact absurd rfl loud
  | cons record records ih =>
      by_cases quiet : record.misuse? = none
      · obtain ⟨front, misuse, rest, rfl, silent⟩ := ih (by simpa [misuses, quiet] using loud)
        exact ⟨record :: front, misuse, rest, rfl, by simpa [misuses, quiet] using silent⟩
      · cases record with
        | misused misuse => exact ⟨[], misuse, records, rfl, rfl⟩
        | bridged => exact absurd rfl quiet
        | reentered => exact absurd rfl quiet

end

end Script

/-! ## Processes -/

namespace Process

open Script

/-- The process with another story. -/
def rewritten (process : Process Session) (records : List Record) (history : List Happening) :
    Process Session :=
  { process with records := records, client := { process.client with history := history } }

/-- The process with another state of a captor. -/
def receiving (process : Process Session) (captor : CaptorId) (receiver : Receiver) :
    Process Session :=
  { process with
    client :=
      { process.client with receivers := process.client.receivers.insert captor receiver } }

/-- The process as a release build has it. -/
def terse (process : Process Session) : Process Session :=
  process.rewritten (process.records.filter Record.lasting)
    (process.client.history.filter Happening.lasting)

variable (process : Process Session)

theorem story_terse : story process.terse = Script.terse (story process) := by
  simp [story, terse, rewritten, Script.terse, log, List.filter_map, Function.comp_def,
    Happening.lasting]

theorem story_write (record : Record) :
    story (process.write record) = story process ++ [.wrote record] := by
  simp [story, write, log]

theorem terse_write {record : Record} (lasting : record.lasting) :
    (process.write record).terse = process.terse.write record := by
  simp [terse, rewritten, write, lasting]

theorem terse_write_brief {record : Record} (brief : record.lasting = false) :
    (process.write record).terse = process.terse := by
  simp [terse, rewritten, write, brief]

end Process

namespace Script

theorem story_note (happening : Happening) (context : Context) (process : Process Session) :
    story (Run.note happening context process).2 = story process ++ [happening] := by
  simp [story, Run.note, Act.modifyProcess, Process.log]

/-- What both builds have is written down by both. -/
theorem note_terse {happening : Happening} (lasting : happening.lasting)
    (context other : Context) (process : Process Session) :
    Run.note happening other process.terse =
      (.value (), (Run.note happening context process).2.terse) := by
  have both : Happening.lasting ∘ Happening.wrote = Record.lasting := rfl
  simp only [Run.note, Act.modifyProcess, Process.terse, Process.rewritten]
  rw [List.filter_cons_of_pos lasting, List.filter_append, List.filter_map, both]
  rfl

/-- What a captor has logged, latest first. -/
def Session.logOf (session : Session) (captor : CaptorId) : List Value :=
  ((session.receivers.find? captor).map Receiver.log).getD []

theorem logOf_receiving (process : Process Session) (captor other : CaptorId)
    (receiver : Receiver) :
    (process.receiving captor receiver).client.logOf other =
      if captor = other then receiver.log else process.client.logOf other := by
  by_cases same : captor = other <;> simp [Process.receiving, Session.logOf, same]

/-! ## Tacit acts -/

/-- A tacit act writes nothing, has captors log nothing, and looks neither at the build nor
at the story. -/
structure Tacit {α : Type} (act : Run α) : Prop where
  blind : ∀ (context : Context) (process : Process Session) (build : Build)
    (records : List Record) (history : List Happening),
      act (context.inBuild build) (process.rewritten records history) =
        ((act context process).1, (act context process).2.rewritten records history)
  logs : ∀ (context : Context) (process : Process Session) (captor : CaptorId),
    (act context process).2.client.logOf captor = process.client.logOf captor

namespace Tacit

variable {α β : Type} {act : Run α} {next : α → Run β}

/-- An act that changes nothing. -/
theorem of_still {see : Context → Process Session → Outcome α}
    (still : ∀ context process, act context process = (see context process, process))
    (blind : ∀ context process build records history,
      see (context.inBuild build) (process.rewritten records history) = see context process) :
    Tacit act where
  blind context process build records history := by rw [still, still, blind]
  logs context process captor := by rw [still]

theorem pure (value : α) : Tacit (Pure.pure value : Run α) :=
  .of_still (fun _ _ => rfl) fun _ _ _ _ _ => rfl

theorem raise (panic : Panic) : Tacit (Act.raise panic : Run α) :=
  .of_still (fun _ _ => rfl) fun _ _ _ _ _ => rfl

theorem conclude (outcome : Outcome α) : Tacit (Act.conclude outcome) := by
  cases outcome with
  | value value => exact .pure value
  | panic panic => exact .raise panic

theorem modifyThread (change : Thread → Thread) : Tacit (Act.modifyThread change : Run Unit) :=
  ⟨fun _ _ _ _ _ => rfl, fun _ _ _ => rfl⟩

theorem modifyRegistry (change : Registry → Registry) :
    Tacit (Act.modifyRegistry change : Run Unit) :=
  ⟨fun _ _ _ _ _ => rfl, fun _ _ _ => rfl⟩

theorem modify {change : Session → Session}
    (blind : ∀ (session : Session) (history : List Happening),
      change { session with history := history } = { change session with history := history })
    (logs : ∀ session : Session, (change session).receivers = session.receivers) :
    Tacit (Run.modify change) where
  blind context process build records history :=
    congrArg (fun client => (Outcome.value (),
      ({ process with records := records, client := client } : Process Session)))
        (blind process.client history)
  logs context process captor := by
    simp [Run.modify, Act.modifyClient, Act.modifyProcess, Session.logOf, logs]

theorem bind (first : Tacit act) (rest : ∀ value, Tacit (next value)) : Tacit (act >>= next) where
  blind context process build records history := by
    rw [Act.bind_apply, Act.bind_apply, first.blind]
    cases act context process with
    | mk outcome middle =>
        cases outcome with
        | value value => exact (rest value).blind context middle build records history
        | panic panic => rfl
  logs context process captor := by
    have logs := first.logs context process captor
    rw [Act.bind_apply]
    cases run : act context process with
    | mk outcome middle =>
        rw [run] at logs
        cases outcome with
        | value value => exact ((rest value).logs context middle captor).trans logs
        | panic panic => exact logs

/-- A tacit act leaves the story alone. -/
theorem story_eq (tacit : Tacit act) (context : Context) (process : Process Session) :
    story (act context process).2 = story process := by
  have same := tacit.blind context process context.build process.records process.client.history
  exact congrArg (fun result => story result.2) same

/-- A tacit act does the same in both builds. -/
theorem terse_eq (tacit : Tacit act) (context : Context) (process : Process Session) :
    act (context.inBuild .release) process.terse =
      ((act (context.inBuild .debug) process).1,
        (act (context.inBuild .debug) process).2.terse) := by
  have kept := tacit.blind (context.inBuild .debug) process .debug process.records
    process.client.history
  have same := tacit.blind (context.inBuild .debug) process .release
    (process.records.filter Record.lasting) (process.client.history.filter Happening.lasting)
  have whole : (act (context.inBuild .debug) process).2 =
      (act (context.inBuild .debug) process).2.rewritten process.records process.client.history :=
    congrArg Prod.snd kept
  rw [whole]
  exact same

end Tacit

end Script

end Ambient
