import Ambient.Proofs.Agreement
import Ambient.Proofs.Stepping

/-!
# A program in two builds

Whatever a program does happens in its steps, so the two builds of it agree until the
step in which the first misuse is found has ended.  What captors have logged is what the
history says that they did, in either build.
-/

namespace Ambient.Script

/-! ## Logs -/

/-- Captors have logged what the story says. -/
def Kept (process : Process Session) : Prop :=
  ∀ captor, process.client.logOf captor = (deliveries captor (story process)).reverse

theorem Kept.lasts : Lasts fun process last => Kept process → Kept last where
  trans := fun first second kept => second (first kept)
  tacit := by
    intro α act tacit context process kept captor
    rw [tacit.logs, tacit.story_eq]
    exact kept captor
  write := by
    intro process record kept captor
    rw [process.story_write, deliveries_append]
    exact (kept captor).trans (by simp [deliveries, Happening.delivery?])

theorem Kept.receive (captor : CaptorId) (message : Value) (context : Context)
    {process : Process Session} (kept : Kept process) :
    Kept (Run.receive captor message context process).2 := by
  rcases receive_cases captor message context process with
    ⟨error, same⟩ | ⟨value, after, logged, same⟩
  · have still := same context.build process.records process.client.history
    exact congrArg Prod.snd still ▸ kept
  · have noted := same context.build process.records process.client.history
    have result : (Run.receive captor message context process).2 =
        (Run.note (.logged captor value) context (process.receiving captor after)).2 :=
      congrArg Prod.snd noted
    intro other
    have logs : (Run.receive captor message context process).2.client.logOf other =
        (process.receiving captor after).client.logOf other :=
      congrArg (fun last => last.client.logOf other) result
    have told : story (process.receiving captor after) = story process := rfl
    rw [logs, result, story_note, told, deliveries_append, logOf_receiving, List.reverse_append,
      ← kept other]
    by_cases same : captor = other
    · subst same
      simp [logged, deliveries, Happening.delivery?]
    · simp [same, deliveries, Happening.delivery?]

theorem Kept.ended (ending : Ending) (context : Context) {process : Process Session}
    (kept : Kept process) : Kept (Run.note (.ended ending) context process).2 := by
  intro captor
  rw [story_note, deliveries_append]
  exact (kept captor).trans (by simp [deliveries, Happening.delivery?])

/-! ## Traces -/

/-- An entry as a release build has it. -/
def Entry.terse (entry : Entry) : Entry :=
  { entry with records := entry.records.filter Record.lasting }

theorem entries_terse (story : List Happening) (records : List Record) :
    entries (records.filter Record.lasting) (terse story) =
      (entries records story).map Entry.terse := by
  induction story generalizing records with
  | nil => rfl
  | cons happening rest ih =>
      cases happening with
      | wrote record =>
          by_cases lasting : record.lasting
          · have kept : terse (.wrote record :: rest) = .wrote record :: terse rest :=
              List.filter_cons_of_pos lasting
            rw [kept, entries, entries, ← ih, List.filter_cons_of_pos lasting]
          · have left : terse (.wrote record :: rest) = terse rest :=
              List.filter_cons_of_neg lasting
            rw [left, entries, ← ih, List.filter_cons_of_neg lasting]
      | logged captor value => exact ih records
      | ended ending =>
          have kept : terse (.ended ending :: rest) = .ended ending :: terse rest := rfl
          rw [kept, entries, entries, List.map_cons, ← ih [], Entry.terse, List.filter_reverse]
          rfl

theorem entries_front (front rest : List Happening) (records : List Record) :
    entries records front <+: entries records (front ++ rest) := by
  induction front generalizing records with
  | nil => exact List.nil_prefix
  | cons happening front ih =>
      cases happening with
      | wrote record => exact ih _
      | logged captor value => exact ih _
      | ended ending => exact List.cons_prefix_cons.mpr ⟨rfl, ih _⟩

/-- The entries before the misuse are the same in both traces. -/
theorem Parts.traces {front debug release : List Happening} {misuse : Misuse}
    {ending other : Ending} (parts : Parts front misuse ending other debug release) :
    entries [] front <+: entries [] debug ∧
      (entries [] front).map Entry.terse <+: entries [] release := by
  obtain ⟨records, rest, rfl⟩ := parts.debug
  obtain ⟨between, more, rfl⟩ := parts.release
  have same : entries [] (terse front) = (entries [] front).map Entry.terse :=
    entries_terse front []
  rw [← same, List.append_assoc, List.append_assoc]
  exact ⟨entries_front front _ [], entries_front (terse front) _ []⟩

/-! ## Reports -/

namespace Report

/-- A report as a release build makes it. -/
def terse (report : Report) : Report :=
  { report with history := Script.terse report.history }

/-- What a captor has logged in the end, latest first. -/
def logOf (report : Report) (captor : CaptorId) : List Value :=
  ((Table.lookup captor report.receivers).map Receiver.log).getD []

end Report

namespace Program

/-- What a result of a program is reported as. -/
def reported (result : Outcome (List CaptorId) × Process Session) : Report :=
  { history := story result.2
    receivers := result.2.client.receivers.entries
    leaked :=
      match result.1 with
      | .value leaked => leaked
      | .panic _ => [] }

theorem run_eq (build : Build) (program : List Step) :
    run build program =
      reported (act program ⟨build, .main, false, []⟩ (Process.start Session.start)) :=
  rfl

theorem reported_terse (outcome : Outcome (List CaptorId)) (process : Process Session) :
    reported (outcome, process.terse) = (reported (outcome, process)).terse := by
  simp only [reported, Report.terse, process.story_terse]
  rfl

theorem run_logs (build : Build) (program : List Step) (captor : CaptorId) :
    ((run build program).logOf captor).reverse =
      deliveries captor (run build program).history := by
  have leads := (act_stepwise program).leads Kept.lasts
    (fun captor message context process => Kept.receive captor message context)
    fun ending context process => Kept.ended ending context
  have kept := leads ⟨build, .main, false, []⟩ (Process.start Session.start) (fun _ => rfl) captor
  exact List.reverse_eq_iff.mpr kept

/-- A program that is run in either build.  If no misuse is found the two reports are the same
but for the descriptions.  Otherwise they are so up to the first misuse, which is the same
one, and the step in which it was found ends in both. -/
theorem builds_agree (program : List Step) :
    let debug := run .debug program
    let release := run .release program
    (∀ build captor, ((run build program).logOf captor).reverse =
        deliveries captor (run build program).history) ∧
      ((misuses debug.history = [] ∧ misuses release.history = [] ∧ release = debug.terse ∧
          release.trace = debug.trace.map Entry.terse) ∨
        ∃ front misuse ending other,
          Parts front misuse ending other debug.history release.history ∧
            entries [] front <+: debug.trace ∧
            (entries [] front).map Entry.terse <+: release.trace) := by
  intro debug release
  refine ⟨fun build captor => run_logs build program captor, ?_⟩
  have agreement := (act_stepwise program).agrees ⟨.debug, .main, false, []⟩
    (Process.start Session.start) rfl rfl
  cases agreement with
  | together same quiet =>
      have whole : release = debug.terse :=
        calc
          release = reported (act program ⟨.release, .main, false, []⟩ (.start .start)) :=
            run_eq .release program
          _ = reported (_, Process.terse _) := congrArg reported same
          _ = debug.terse := reported_terse ..
      have silent : misuses release.history = [] := by
        rw [whole]
        exact (misuses_terse _).trans quiet
      refine .inl ⟨quiet, silent, whole, ?_⟩
      rw [whole]
      exact entries_terse debug.history []
  | raised isLoose => contradiction
  | parted parts => exact .inr ⟨_, _, _, _, parts, parts.traces⟩

end Program

end Ambient.Script
