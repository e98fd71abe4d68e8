import Ambient.Proofs.Stories

/-!
# The same act in two builds

Until a misuse is found a debug build and a release build do the same.  Then the debug
build raises it, and what the two do afterwards may differ; but a panic passes through
scopes, where no step is run, up to the step that it was raised in, and that step ends
in the release build too.  `Aside` are the acts that scopes are started and ended with,
`Stepwise` those that run steps; how they can be put together is all that is known of
them here.
-/

namespace Ambient.Script

/-! ## How acts are put together -/

/-- Acts that run no step: all that they write are records. -/
inductive Aside : {α : Type} → Run α → Prop where
  | tacit {α : Type} {act : Run α} (tacit : Tacit act) : Aside act
  | describe {record : Record} (brief : record.lasting = false) : Aside (Act.describe record)
  | report (misuse : Misuse) : Aside (Act.report misuse)
  | bind {α β : Type} {act : Run α} {next : α → Run β} (first : Aside act)
      (rest : ∀ value, Aside (next value)) : Aside (act >>= next)
  | ensuring {α : Type} {body : Run α} {close : Run Unit} (first : Aside body)
      (last : Aside close) : Aside (body.ensuring close)
  | onPanic {α : Type} {body : Run α} {close : Run Unit} (first : Aside body)
      (last : Aside close) : Aside (body.onPanic close)

/-- What an act does may depend on anything but the build and the story. -/
def Blind {α : Type} (see : Context → Process Session → α) : Prop :=
  ∀ (context : Context) (process : Process Session) (build : Build) (records : List Record)
    (history : List Happening),
      see (context.inBuild build) (process.rewritten records history) = see context process

/-- Acts that may run steps.  Loose ones may raise a misuse outside of them. -/
inductive Stepwise : Bool → {α : Type} → Run α → Prop where
  | tacit {α : Type} {act : Run α} (tacit : Tacit act) : Stepwise false act
  | aside {α : Type} {act : Run α} (aside : Aside act) : Stepwise true act
  | loosen {α : Type} {act : Run α} (tight : Stepwise false act) : Stepwise true act
  | receive (captor : CaptorId) (message : Value) : Stepwise false (Run.receive captor message)
  | entered {α : Type} {act : Run α} (label : String) (result : Outcome α → Value)
      (body : Stepwise true act) :
      Stepwise false (Act.attempt act >>= fun outcome =>
        Run.addEntry label (result outcome) >>= fun _ => pure outcome)
  | reading {loose : Bool} {α : Type} {see : Context → Process Session → Run α}
      (blind : Blind see) (rest : ∀ context process, Stepwise loose (see context process)) :
      Stepwise loose (fun context process => see context process context process)
  | bind {loose : Bool} {α β : Type} {act : Run α} {next : α → Run β}
      (first : Stepwise loose act) (rest : ∀ value, Stepwise loose (next value)) :
      Stepwise loose (act >>= next)
  | ensuring {α : Type} {body : Run α} {close : Run Unit} (first : Stepwise true body)
      (last : Aside close) : Stepwise true (body.ensuring close)
  | onPanic {α : Type} {body : Run α} {close : Run Unit} (first : Stepwise true body)
      (last : Aside close) : Stepwise true (body.onPanic close)
  | holding {loose : Bool} {α : Type} {act : Run α} (captors : List CaptorId)
      (body : Stepwise loose act) : Stepwise loose (Act.holding captors act)
  | attempt {α : Type} {act : Run α} (body : Stepwise false act) :
      Stepwise false (Act.attempt act)
  | onThread {α : Type} {act : Run α} (id : ThreadId) (body : Stepwise false act) :
      Stepwise false (Act.onThread id act)
  | recover {α : Type} {act : Run α} {close : Run Unit} (body : Stepwise true act)
      (last : Aside close) :
      Stepwise true (Act.attempt act >>= fun outcome =>
        close >>= fun _ => Act.conclude outcome)

/-! ## What a run adds up to -/

/-- An act leads from every process to a related one. -/
def Leads (R : Process Session → Process Session → Prop) {α : Type} (act : Run α) : Prop :=
  ∀ (context : Context) (process : Process Session), R process (act context process).2

/-- A relation between processes that every way to put acts together preserves. -/
structure Lasts (R : Process Session → Process Session → Prop) : Prop where
  trans : ∀ {first middle last : Process Session}, R first middle → R middle last → R first last
  tacit : ∀ {α : Type} {act : Run α}, Tacit act → Leads R act
  write : ∀ (process : Process Session) (record : Record), R process (process.write record)

section

variable {R : Process Session → Process Session → Prop} {α β : Type} {act body : Run α}
  {next : α → Run β} {close : Run Unit}

theorem Leads.after_ensuring (last : Leads R close) (context : Context)
    (process : Process Session) :
    R (body context process).2 (body.ensuring close context process).2 := by
  obtain ⟨place, -, same⟩ := Act.ensuring_process body close context process
  rw [same]
  exact last place _

namespace Lasts

variable (lasts : Lasts R)
include lasts

theorem refl (process : Process Session) : R process process :=
  lasts.tacit (.pure ()) ⟨.debug, .main, false, []⟩ process

theorem after_bind (rest : ∀ value, Leads R (next value)) (context : Context)
    (process : Process Session) :
    R (act context process).2 ((act >>= next) context process).2 := by
  cases outcome : (act context process).1 with
  | value value =>
      rw [Act.bind_of_value outcome]
      exact rest value context _
  | panic panic =>
      rw [Act.bind_of_panic next outcome]
      exact lasts.refl _

theorem after_onPanic (last : Leads R close) (context : Context) (process : Process Session) :
    R (body context process).2 (body.onPanic close context process).2 := by
  cases outcome : (body context process).1 with
  | value value =>
      rw [Act.onPanic_of_value outcome]
      exact lasts.refl _
  | panic panic =>
      rw [Act.onPanic_of_panic close outcome]
      exact last _ _

theorem bind (first : Leads R act) (rest : ∀ value, Leads R (next value)) :
    Leads R (act >>= next) :=
  fun context process => lasts.trans (first context process) (lasts.after_bind rest context process)

theorem ensuring (first : Leads R body) (last : Leads R close) : Leads R (body.ensuring close) :=
  fun context process =>
    lasts.trans (first context process) (last.after_ensuring context process)

theorem onPanic (first : Leads R body) (last : Leads R close) : Leads R (body.onPanic close) :=
  fun context process =>
    lasts.trans (first context process) (lasts.after_onPanic last context process)

theorem report (misuse : Misuse) : Leads R (Act.report misuse) := by
  intro context process
  unfold Act.report
  dsimp only
  split <;> exact lasts.write process _

theorem describe (record : Record) : Leads R (Act.describe record) := by
  rintro ⟨build, id, unwinding, held⟩ process
  cases build with
  | debug => exact lasts.write process record
  | release => exact lasts.refl process

end Lasts

theorem Aside.leads (lasts : Lasts R) (aside : Aside act) : Leads R act := by
  induction aside with
  | tacit tacit => exact lasts.tacit tacit
  | describe brief => exact lasts.describe _
  | report misuse => exact lasts.report misuse
  | bind first rest ih ihRest => exact lasts.bind ih ihRest
  | ensuring first last ih ihLast => exact lasts.ensuring ih ihLast
  | onPanic first last ih ihLast => exact lasts.onPanic ih ihLast

theorem Stepwise.leads (lasts : Lasts R)
    (receive : ∀ captor message, Leads R (Run.receive captor message))
    (ended : ∀ ending, Leads R (Run.note (.ended ending))) {loose : Bool}
    (stepwise : Stepwise loose act) : Leads R act := by
  induction stepwise with
  | tacit tacit => exact lasts.tacit tacit
  | aside aside => exact aside.leads lasts
  | loosen tight ih => exact ih
  | receive captor message => exact receive captor message
  | entered label result body ih =>
      refine lasts.bind ih fun outcome => lasts.bind ?_ fun _ => lasts.tacit (.pure outcome)
      exact fun context process => ended _ context process
  | reading blind rest ih => exact fun context process => ih context process context process
  | bind first rest ih ihRest => exact lasts.bind ih ihRest
  | ensuring first last ih => exact lasts.ensuring ih (last.leads lasts)
  | onPanic first last ih => exact lasts.onPanic ih (last.leads lasts)
  | holding captors body ih => exact fun context process => ih _ process
  | attempt body ih => exact ih
  | onThread id body ih => exact fun context process => ih _ process
  | recover body last ih =>
      exact lasts.bind ih fun outcome =>
        lasts.bind (last.leads lasts) fun _ => lasts.tacit (.conclude outcome)

end

/-! ## What a run adds to the story -/

/-- A run adds to the story. -/
def Grows (process last : Process Session) : Prop :=
  story process <+: story last

/-- A run adds nothing but records. -/
def Writes (process last : Process Session) : Prop :=
  ∃ records : List Record, story last = story process ++ records.map .wrote

theorem Writes.lasts : Lasts Writes where
  trans := by
    rintro first middle last ⟨records, front⟩ ⟨others, back⟩
    exact ⟨records ++ others, by rw [back, front, List.map_append, List.append_assoc]⟩
  tacit := fun tacit context process => ⟨[], by simp [tacit.story_eq]⟩
  write := fun process record => ⟨[record], process.story_write record⟩

theorem Writes.grows {process last : Process Session} (writes : Writes process last) :
    Grows process last := by
  obtain ⟨records, told⟩ := writes
  exact ⟨_, told.symm⟩

theorem Grows.lasts : Lasts Grows where
  trans := List.IsPrefix.trans
  tacit := fun tacit context process => (Writes.lasts.tacit tacit context process).grows
  write := fun process record => (Writes.lasts.write process record).grows

theorem Grows.note (happening : Happening) : Leads Grows (Run.note happening) :=
  fun context process => ⟨[happening], (story_note happening context process).symm⟩

/-- A captor that accepts a message logs one value; otherwise nothing happens. -/
theorem receive_cases (captor : CaptorId) (message : Value) (context : Context)
    (process : Process Session) :
    (∃ error, ∀ build records history,
      Run.receive captor message (context.inBuild build) (process.rewritten records history) =
        (.value (.error error), process.rewritten records history)) ∨
    ∃ (value : Value) (after : Receiver), after.log = value :: process.client.logOf captor ∧
      ∀ build records history,
        Run.receive captor message (context.inBuild build) (process.rewritten records history) =
          (.value (.ok after), (Run.note (.logged captor value) context
            ((process.receiving captor after).rewritten records history)).2) := by
  cases found : process.client.receivers.find? captor with
  | none =>
      refine .inl ⟨.register, fun build records history => ?_⟩
      have here : (process.rewritten records history).client.receivers.find? captor = none := found
      simp [Run.receive, Run.session, Act.bind_apply, Act.client, here, Act.pure_apply]
  | some receiver =>
      have here (records : List Record) (history : List Happening) :
          (process.rewritten records history).client.receivers.find? captor = some receiver := found
      by_cases accepts : receiver.channel.accepts message
      · let value := receiver.manner.entry captor receiver.log.head? message
        let after : Receiver := { receiver with log := value :: receiver.log }
        refine .inr ⟨value, after, by simp [after, Session.logOf, found],
          fun build records history => ?_⟩
        simp only [Run.receive, Run.session, Act.bind_apply, Act.client, here, accepts, if_true]
        rfl
      · refine .inl ⟨.message, fun build records history => ?_⟩
        simp [Run.receive, Run.session, Act.bind_apply, Act.client, here, accepts, Act.pure_apply]

theorem Grows.receive (captor : CaptorId) (message : Value) :
    Leads Grows (Run.receive captor message) := by
  intro context process
  rcases receive_cases captor message context process with
    ⟨error, same⟩ | ⟨value, after, -, same⟩
  · have still := same context.build process.records process.client.history
    exact congrArg Prod.snd still ▸ Grows.lasts.refl process
  · have noted := same context.build process.records process.client.history
    exact congrArg Prod.snd noted ▸ Grows.note _ context (process.receiving captor after)

variable {α β : Type} {act body : Run α} {next : α → Run β} {close : Run Unit} {loose : Bool}

theorem Stepwise.grows (stepwise : Stepwise loose act) : Leads Grows act :=
  stepwise.leads Grows.lasts Grows.receive fun ending => Grows.note (.ended ending)

end Ambient.Script
