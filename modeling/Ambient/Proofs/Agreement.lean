import Ambient.Proofs.Builds

/-!
# How far two builds agree

From processes that are the same up to descriptions an act leads to such processes again,
as long as no misuse is found; this is to be `together`.  A misuse that is `raised` has
not left its step yet: all that the debug build has done since is to unwind.  Once the
step has ended in both builds, the two have `parted`, and whatever they do from then on
leaves them so.
-/

namespace Ambient.Script

/-! ## Where two stories part -/

/-- Two stories are the same up to the first misuse.  The first story ends the step that it
was found in at once, and the second one sooner or later. -/
structure Parts (front : List Happening) (misuse : Misuse) (ending other : Ending)
    (debug release : List Happening) : Prop where
  quiet : misuses front = []
  debug : ∃ records : List Record,
    front ++ .wrote (.misused misuse) :: (records.map .wrote ++ [.ended ending]) <+: debug
  release : ∃ between : List Happening,
    terse front ++ .wrote (.misused misuse) :: (between ++ [.ended other]) <+: release
  label : other.label = ending.label
  thread : other.thread = ending.thread

/-- The step that the misuse was found in has not ended yet in the first story. -/
structure Raised (front : List Happening) (misuse : Misuse)
    (debug release : List Happening) : Prop where
  quiet : misuses front = []
  debug : ∃ records : List Record, debug = front ++ .wrote (.misused misuse) :: records.map .wrote
  release : terse front ++ [.wrote (.misused misuse)] <+: release

section

variable {front debug release later : List Happening} {misuse : Misuse} {ending other : Ending}

theorem Parts.grow (parts : Parts front misuse ending other debug release)
    {more : List Happening} (first : debug <+: later) (second : release <+: more) :
    Parts front misuse ending other later more where
  quiet := parts.quiet
  debug := parts.debug.imp fun _ told => told.trans first
  release := parts.release.imp fun _ told => told.trans second
  label := parts.label
  thread := parts.thread

theorem Raised.grow (raised : Raised front misuse debug release) (records : List Record)
    (second : release <+: later) :
    Raised front misuse (debug ++ records.map .wrote) later where
  quiet := raised.quiet
  debug := by
    obtain ⟨others, rfl⟩ := raised.debug
    exact ⟨others ++ records, by simp⟩
  release := raised.release.trans second

/-- The step ends, in the second story after whatever it has done meanwhile. -/
theorem Raised.parts (raised : Raised front misuse debug release)
    (label : other.label = ending.label) (thread : other.thread = ending.thread) :
    Parts front misuse ending other (debug ++ [.ended ending]) (release ++ [.ended other]) where
  quiet := raised.quiet
  debug := by
    obtain ⟨records, rfl⟩ := raised.debug
    exact ⟨records, by simp⟩
  release := by
    obtain ⟨between, rfl⟩ := raised.release
    exact ⟨between, by simp⟩
  label := label
  thread := thread

end

/-! ## Agreement -/

/-- What an act has led to in a debug build and in a release build. -/
inductive Agreement (loose : Bool) {α : Type} (debug release : Outcome α × Process Session) :
    Prop where
  | together (same : release = (debug.1, debug.2.terse)) (quiet : misuses (story debug.2) = [])
  | raised {front : List Happening} {misuse : Misuse} (isLoose : loose = true)
      (panics : debug.1.isPanic = true)
      (raised : Raised front misuse (story debug.2) (story release.2))
  | parted {front : List Happening} {misuse : Misuse} {ending other : Ending}
      (parts : Parts front misuse ending other (story debug.2) (story release.2))

/-- From processes that are the same up to descriptions the two builds agree. -/
def Agrees (loose : Bool) {α : Type} (act : Run α) : Prop :=
  ∀ (context : Context) (process : Process Session), context.unwinding = false →
    misuses (story process) = [] →
      Agreement loose (act (context.inBuild .debug) process)
        (act (context.inBuild .release) process.terse)

/-- While a panic is passing nothing is raised, so the two builds do the same. -/
def InStep {α : Type} (act : Run α) : Prop :=
  ∀ (context : Context) (process : Process Session), context.unwinding = true →
    act (context.inBuild .release) process.terse =
      ((act (context.inBuild .debug) process).1,
        (act (context.inBuild .debug) process).2.terse)

section

variable {α β : Type} {act body : Run α} {next : α → Run β} {close : Run Unit} {loose : Bool}
  {context : Context} {process : Process Session}

theorem Outcome.exists_of_isPanic {outcome : Outcome α} (panics : outcome.isPanic = true) :
    ∃ panic, outcome = .panic panic := by
  cases outcome with
  | value value => contradiction
  | panic panic => exact ⟨panic, rfl⟩

namespace Agreement

theorem loosen {debug release : Outcome α × Process Session}
    (agreement : Agreement false debug release) : Agreement loose debug release := by
  cases agreement with
  | together same quiet => exact .together same quiet
  | raised isLoose => contradiction
  | parted parts => exact .parted parts

/-- After nothing but unwinding the first misuse is one that was just found, if any. -/
theorem of_unwound {outcome : Outcome α} {last : Process Session} (panics : outcome.isPanic = true)
    (quiet : misuses (story process) = []) (writes : Writes process last) :
    Agreement true (outcome, last) (outcome, last.terse) := by
  obtain ⟨records, told⟩ := writes
  by_cases silent : misuses (records.map .wrote) = []
  · refine .together rfl ?_
    rw [told, misuses_append, quiet, silent, List.append_nil]
  · obtain ⟨front, misuse, rest, rfl, before⟩ := misuses_records silent
    have split : story last =
        (story process ++ front.map .wrote) ++ .wrote (.misused misuse) :: rest.map .wrote := by
      simp [told]
    have silent : misuses (story process ++ front.map .wrote) = [] := by
      rw [misuses_append, quiet, before, List.append_nil]
    refine .raised rfl panics ⟨silent, ⟨rest, split⟩, ?_⟩
    have kept : story last.terse = terse (story process ++ front.map .wrote) ++
        .wrote (.misused misuse) :: terse (rest.map .wrote) := by
      rw [Process.story_terse, split, terse_append]
      rfl
    rw [kept]
    exact (List.prefix_append_right_inj _).mpr ⟨terse (rest.map .wrote), rfl⟩

theorem bind {debug release : Context}
    (first : Agreement loose (act debug process) (act release process.terse))
    (grows : ∀ value, Leads Grows (next value))
    (rest : ∀ value (middle : Process Session), misuses (story middle) = [] →
      Agreement loose (next value debug middle) (next value release middle.terse)) :
    Agreement loose ((act >>= next) debug process) ((act >>= next) release process.terse) := by
  have growth (context : Context) (process : Process Session) :
      Grows (act context process).2 ((act >>= next) context process).2 :=
    Grows.lasts.after_bind grows context process
  cases first with
  | together same quiet =>
      have processes := congrArg Prod.snd same
      have outcomes := congrArg Prod.fst same
      cases outcome : (act debug process).1 with
      | value value =>
          rw [Act.bind_of_value outcome, Act.bind_of_value (outcomes.trans outcome), processes]
          exact rest value _ quiet
      | panic panic =>
          rw [Act.bind_of_panic next outcome, Act.bind_of_panic next (outcomes.trans outcome),
            processes]
          exact .together rfl quiet
  | raised isLoose panics raised =>
      -- The debug build skips what is left, so only the story of the release build grows.
      obtain ⟨panic, outcome⟩ := Outcome.exists_of_isPanic panics
      have later := raised.grow [] (growth release process.terse)
      rw [List.map_nil, List.append_nil] at later
      rw [Act.bind_of_panic next outcome]
      exact .raised isLoose rfl later
  | parted parts => exact .parted (parts.grow (growth debug process) (growth release process.terse))

/-- A close that runs unwinding after a panic does the same in both builds, and in the debug
build it adds nothing but records to a misuse that was raised before. -/
theorem closing {whole : Run α}
    (first : Agreement true (body (context.inBuild .debug) process)
      (body (context.inBuild .release) process.terse))
    (writes : Leads Writes close) (inStep : InStep close)
    (unwinds : ∀ context process panic, (body context process).1 = .panic panic →
      whole context process =
        (.panic panic, (Act.unwound close context (body context process).2).2))
    (after : ∀ context process, Writes (body context process).2 (whole context process).2)
    (ends : ∀ value (middle : Process Session), misuses (story middle) = [] →
      body (context.inBuild .debug) process = (.value value, middle) →
        body (context.inBuild .release) process.terse = (.value value, middle.terse) →
          Agreement true (whole (context.inBuild .debug) process)
            (whole (context.inBuild .release) process.terse)) :
    Agreement true (whole (context.inBuild .debug) process)
      (whole (context.inBuild .release) process.terse) := by
  cases first with
  | together same quiet =>
      cases run : body (context.inBuild .debug) process with
      | mk outcome middle =>
          rw [run] at same quiet
          cases outcome with
          | value value => exact ends value middle quiet run same
          | panic panic =>
              -- The panic passes in both builds, so a misuse that the close finds is not raised.
              have closed := inStep { context with unwinding := true } middle rfl
              rw [unwinds _ _ panic (congrArg Prod.fst run),
                unwinds _ _ panic (congrArg Prod.fst same), run, same]
              have passed : (Outcome.panic panic : Outcome α).isPanic = true := rfl
              have both := of_unwound passed quiet
                (writes (Context.inBuild { context with unwinding := true } .debug) middle)
              exact congrArg Prod.snd closed ▸ both
  | raised isLoose panics raised =>
      obtain ⟨panic, outcome⟩ := Outcome.exists_of_isPanic panics
      obtain ⟨records, told⟩ := after (context.inBuild .debug) process
      refine .raised rfl ?_
        (told ▸ raised.grow records (after (context.inBuild .release) process.terse).grows)
      rw [unwinds _ _ panic outcome]
      rfl
  | parted parts =>
      exact .parted (parts.grow (after (context.inBuild .debug) process).grows
        (after (context.inBuild .release) process.terse).grows)

end Agreement

/-! ## Acts that run no step -/

theorem Tacit.agrees (tacit : Tacit act) : Agrees loose act :=
  fun context process _ quiet =>
    .together (tacit.terse_eq context process) (by rw [tacit.story_eq, quiet])

theorem Aside.writes (aside : Aside act) : Leads Writes act :=
  aside.leads Writes.lasts

theorem Aside.grows (aside : Aside act) : Leads Grows act :=
  fun context process => (aside.writes context process).grows

theorem InStep.bind (first : InStep act) (rest : ∀ value, InStep (next value)) :
    InStep (act >>= next) := by
  intro context process unwinding
  have same := first context process unwinding
  cases run : act (context.inBuild .debug) process with
  | mk outcome middle =>
      rw [run] at same
      simp only [Act.bind_apply, run, same]
      cases outcome with
      | value value => exact rest value context middle unwinding
      | panic panic => rfl

theorem InStep.unwound (inStep : InStep act) (context : Context) (process : Process Session) :
    Act.unwound act (context.inBuild .release) process.terse =
      ((Act.unwound act (context.inBuild .debug) process).1,
        (Act.unwound act (context.inBuild .debug) process).2.terse) :=
  inStep { context with unwinding := true } process rfl

theorem InStep.ensuring (first : InStep body) (last : InStep close) :
    InStep (body.ensuring close) := by
  intro context process unwinding
  have same := first context process unwinding
  cases run : body (context.inBuild .debug) process with
  | mk outcome middle =>
      rw [run] at same
      cases outcome with
      | value value =>
          rw [Act.ensuring_of_value close (congrArg Prod.fst run),
            Act.ensuring_of_value close (congrArg Prod.fst same), run, same]
          exact last.bind (fun _ context process _ => Tacit.terse_eq (.pure value) context process)
            context middle unwinding
      | panic panic =>
          rw [Act.ensuring_of_panic close (congrArg Prod.fst run),
            Act.ensuring_of_panic close (congrArg Prod.fst same), run, same, last.unwound]

theorem InStep.onPanic (first : InStep body) (last : InStep close) :
    InStep (body.onPanic close) := by
  intro context process unwinding
  have same := first context process unwinding
  cases run : body (context.inBuild .debug) process with
  | mk outcome middle =>
      rw [run] at same
      cases outcome with
      | value value =>
          rw [Act.onPanic_of_value (congrArg Prod.fst run),
            Act.onPanic_of_value (congrArg Prod.fst same), run, same]
      | panic panic =>
          rw [Act.onPanic_of_panic close (congrArg Prod.fst run),
            Act.onPanic_of_panic close (congrArg Prod.fst same), run, same, last.unwound]

theorem Aside.inStep (aside : Aside act) : InStep act := by
  induction aside with
  | tacit tacit => exact fun context process _ => tacit.terse_eq context process
  | describe brief =>
      intro context process _
      exact congrArg (Prod.mk _) (process.terse_write_brief brief).symm
  | report misuse =>
      intro context process unwinding
      have written (build : Build) (process : Process Session) :
          Act.report misuse (context.inBuild build) process =
            (.value (), process.write (.misused misuse)) := by
        simp [Act.report, Context.inBuild, unwinding]
      rw [written, written, process.terse_write rfl]
  | bind first rest ih ihRest => exact ih.bind ihRest
  | ensuring first last ih ihLast => exact ih.ensuring ihLast
  | onPanic first last ih ihLast => exact ih.onPanic ihLast

theorem Agrees.ensuring (first : Agrees true body) (writes : Leads Writes close)
    (inStep : InStep close) (last : Agrees true close) : Agrees true (body.ensuring close) := by
  intro context process calm quiet
  refine (first context process calm quiet).closing writes inStep
    (fun _ _ panic outcome => Act.ensuring_of_panic close outcome)
    (fun context process => writes.after_ensuring context process)
    fun value middle silent run same => ?_
  rw [Act.ensuring_of_value close (congrArg Prod.fst run),
    Act.ensuring_of_value close (congrArg Prod.fst same), run, same]
  exact (last context middle calm silent).bind (fun _ => Grows.lasts.tacit (.pure value))
    fun _ middle silent => Tacit.agrees (.pure value) context middle calm silent

theorem Agrees.onPanic (first : Agrees true body) (writes : Leads Writes close)
    (inStep : InStep close) : Agrees true (body.onPanic close) := by
  intro context process calm quiet
  refine (first context process calm quiet).closing writes inStep
    (fun _ _ panic outcome => Act.onPanic_of_panic close outcome)
    (fun context process => Writes.lasts.after_onPanic writes context process)
    fun value middle silent run same => ?_
  rw [Act.onPanic_of_value (congrArg Prod.fst run), Act.onPanic_of_value (congrArg Prod.fst same),
    run, same]
  exact .together rfl silent

theorem Agrees.bind (first : Agrees loose act) (grows : ∀ value, Leads Grows (next value))
    (rest : ∀ value, Agrees loose (next value)) : Agrees loose (act >>= next) :=
  fun context process calm quiet =>
    (first context process calm quiet).bind grows
      fun value middle silent => rest value context middle calm silent

theorem Aside.agrees (aside : Aside act) : Agrees true act := by
  induction aside with
  | tacit tacit => exact tacit.agrees
  | @describe record brief =>
      intro context process _ quiet
      refine .together (congrArg (Prod.mk _) (process.terse_write_brief brief).symm) ?_
      have silent : record.misuse? = none := by simpa [Record.lasting] using brief
      change misuses (story (process.write record)) = []
      rw [process.story_write, misuses_append, quiet]
      simp [misuses, silent]
  | report misuse =>
      intro context process calm quiet
      have debug : Act.report misuse (context.inBuild .debug) process =
          (.panic (.misused misuse), process.write (.misused misuse)) := by
        simp [Act.report, Context.inBuild, calm]
      have release : Act.report misuse (context.inBuild .release) process.terse =
          (.value (), process.terse.write (.misused misuse)) := by
        simp [Act.report, Context.inBuild]
      rw [debug, release]
      refine .raised rfl rfl ⟨quiet, ⟨[], process.story_write _⟩, ?_⟩
      rewrite [Process.story_write, Process.story_terse]
      exact List.prefix_rfl
  | bind first rest ih ihRest => exact ih.bind (fun value => (rest value).grows) ihRest
  | ensuring first last ih ihLast => exact ih.ensuring last.writes last.inStep ihLast
  | onPanic first last ih ihLast => exact ih.onPanic last.writes last.inStep

/-! ## Acts that run steps -/

theorem attempt_bind_apply (act : Run α) (next : Outcome α → Run β) (context : Context)
    (process : Process Session) :
    (Act.attempt act >>= next) context process =
      next (act context process).1 context (act context process).2 :=
  rfl

theorem Agrees.receive (captor : CaptorId) (message : Value) :
    Agrees loose (Run.receive captor message) := by
  intro context process _ quiet
  rcases receive_cases captor message context process with
    ⟨error, same⟩ | ⟨value, after, -, same⟩
  · have debug : Run.receive captor message (context.inBuild .debug) process =
        (.value (.error error), process) := same .debug _ _
    have release : Run.receive captor message (context.inBuild .release) process.terse =
        (.value (.error error), process.terse) := same .release _ _
    rw [debug, release]
    exact .together rfl quiet
  · let next := process.receiving captor after
    have debug : Run.receive captor message (context.inBuild .debug) process =
        (.value (.ok after), (Run.note (.logged captor value) context next).2) := same .debug _ _
    have release : Run.receive captor message (context.inBuild .release) process.terse =
        (.value (.ok after), (Run.note (.logged captor value) context next.terse).2) :=
      same .release _ _
    rw [debug, release, note_terse rfl context context]
    refine .together rfl ?_
    rw [story_note, misuses_append]
    exact List.append_eq_nil_iff.mpr ⟨quiet, rfl⟩

/-- How a step is written down that ends here. -/
def endingAt (label : String) (result : Value) (context : Context) (process : Process Session) :
    Ending :=
  let thread := process.thread context.thread
  ⟨label, context.thread, result,
    Channel.all.filterMap fun channel =>
      (thread.current channel.captorType).map fun captor => (channel, captor),
    thread.chain.depth⟩

theorem entered_apply (act : Run α) (label : String) (result : Outcome α → Value)
    (context : Context) (process : Process Session) :
    (Act.attempt act >>= fun outcome =>
        Run.addEntry label (result outcome) >>= fun _ => pure outcome) context process =
      (.value (act context process).1,
        (Run.note (.ended (endingAt label (result (act context process).1) context
          (act context process).2)) context (act context process).2).2) :=
  rfl

/-- A step ends wherever the two builds have got to in it. -/
theorem Agrees.entered (label : String) (result : Outcome α → Value) (body : Agrees true act) :
    Agrees false (Act.attempt act >>= fun outcome =>
      Run.addEntry label (result outcome) >>= fun _ => pure outcome) := by
  intro context process calm quiet
  have first := body context process calm quiet
  rw [entered_apply, entered_apply]
  cases first with
  | together same silent =>
      rw [same]
      have ending (value : Value) (last : Process Session) :
          endingAt label value (context.inBuild .release) last.terse =
            endingAt label value (context.inBuild .debug) last := rfl
      rw [ending, note_terse rfl (context.inBuild .debug) (context.inBuild .release)]
      refine .together rfl ?_
      rw [story_note, misuses_append]
      exact List.append_eq_nil_iff.mpr ⟨silent, rfl⟩
  | raised isLoose panics raised =>
      apply Agreement.parted
      rw [story_note, story_note]
      exact raised.parts rfl rfl
  | parted parts =>
      exact .parted (parts.grow (Grows.note _ (context.inBuild .debug) _)
        (Grows.note _ (context.inBuild .release) _))

theorem Agrees.attempt (body : Agrees false act) : Agrees false (Act.attempt act) := by
  intro context process calm quiet
  have apply (context : Context) (process : Process Session) :
      Act.attempt act context process =
        (.value (act context process).1, (act context process).2) := rfl
  rw [apply, apply]
  cases body context process calm quiet with
  | together same silent =>
      rw [same]
      exact .together rfl silent
  | raised isLoose => contradiction
  | parted parts => exact .parted parts

theorem Agrees.reading {see : Context → Process Session → Run α} (blind : Blind see)
    (rest : ∀ context process, Agrees loose (see context process)) :
    Agrees loose (fun context process => see context process context process) := by
  intro context process calm quiet
  have debug : see (context.inBuild .debug) process = see context process :=
    blind context process .debug process.records process.client.history
  have release : see (context.inBuild .release) process.terse = see context process :=
    blind context process .release _ _
  dsimp only
  rw [debug, release]
  exact rest context process context process calm quiet

theorem Agrees.recover (body : Agrees true act) (last : Aside close) :
    Agrees true (Act.attempt act >>= fun outcome => close >>= fun _ => Act.conclude outcome) := by
  intro context process calm quiet
  have after (outcome : Outcome α) : Aside (close >>= fun _ => Act.conclude outcome) :=
    last.bind fun _ => .tacit (.conclude outcome)
  have first := body context process calm quiet
  rw [attempt_bind_apply, attempt_bind_apply]
  cases first with
  | together same silent =>
      rw [same]
      exact (after _).agrees context _ calm silent
  | raised isLoose panics raised =>
      obtain ⟨panic, outcome⟩ := Outcome.exists_of_isPanic panics
      obtain ⟨records, told⟩ := (after (act (context.inBuild .debug) process).1).writes
        (context.inBuild .debug) (act (context.inBuild .debug) process).2
      refine .raised rfl ?_ (told ▸ raised.grow records ((after _).grows _ _))
      rw [outcome, Act.bind_apply]
      cases close (context.inBuild .debug) (act (context.inBuild .debug) process).2 with
      | mk ending last => cases ending <;> rfl
  | parted parts => exact .parted (parts.grow ((after _).grows _ _) ((after _).grows _ _))

/-- However an act is put together, the two builds agree on it: a misuse that is raised
inside a step has left it by its end, and outside of steps only what is loose raises any. -/
theorem Stepwise.agrees (stepwise : Stepwise loose act) : Agrees loose act := by
  induction stepwise with
  | tacit tacit => exact tacit.agrees
  | aside aside => exact aside.agrees
  | loosen tight ih =>
      intro context process calm quiet
      exact (ih context process calm quiet).loosen
  | receive captor message => exact .receive captor message
  | entered label result body ih => exact ih.entered label result
  | reading blind rest ih => exact .reading blind ih
  | bind first rest ih ihRest => exact ih.bind (fun value => (rest value).grows) ihRest
  | ensuring first last ih => exact ih.ensuring last.writes last.inStep last.agrees
  | onPanic first last ih => exact ih.onPanic last.writes last.inStep
  | holding captors body ih =>
      exact fun context process =>
        ih { context with held := captors ++ context.held } process
  | attempt body ih => exact ih.attempt
  | onThread id body ih =>
      exact fun context process _ =>
        ih.attempt { context with thread := id, unwinding := false } process rfl
  | recover body last ih => exact ih.recover last

end

end Ambient.Script
