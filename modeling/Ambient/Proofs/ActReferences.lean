import Ambient.Proofs.SessionReferences

/-!
# What references acts are given and leave

An act of a script is given some references, besides those that the session has and those
of anyone else, and leaves others behind, by how it ends and by how the session is then.
`Transfers` says so of an act on a thread.  Meanwhile only threads that are attended to have
anything: the main thread, the workers, and those that others wait for.
-/

namespace Ambient

/-- A thread has nothing in its slots and nothing on its chain. -/
structure Thread.Bare (thread : Thread) : Prop where
  slots : thread.slots = .empty
  chain : thread.chain = []

open Script

namespace Script.Session

/-- Whether a thread may have anything, where some of those spawned are in progress. -/
def Attends (active : List Nat) (session : Session) : ThreadId → Prop
  | .main => True
  | .worker name => name ∈ session.workers
  | .spawned index => index ∈ active ∧ index ≤ session.spawned

/-- All that changes for the threads is what one of them keeps, and there may be more. -/
structure Own (id : ThreadId) (session next : Session) : Prop where
  spawned : session.spawned ≤ next.spawned
  workers : session.workers ⊆ next.workers
  handles : ∀ other, id ≠ other → next.handlesOf other = session.handlesOf other
  futures : ∀ other, id ≠ other → next.futuresOf other = session.futuresOf other

/-- Nothing changes that refers to anything. -/
structure Untouched (session next : Session) : Prop where
  registers : next.registers = session.registers
  handles : next.handles = session.handles
  futures : next.futures = session.futures
  forgotten : next.forgotten = session.forgotten
  spawned : session.spawned ≤ next.spawned
  workers : session.workers ⊆ next.workers

namespace Untouched

variable {session next : Session}

theorem references (same : session.Untouched next) : next.references = session.references := by
  rw [Session.references, same.registers, same.handles, same.futures, same.forgotten,
    Session.references]

theorem neat (same : session.Untouched next) (neat : session.Neat) : next.Neat where
  registers := same.registers ▸ neat.registers
  items := same.registers ▸ neat.items
  handles := same.handles ▸ neat.handles
  named := same.handles ▸ neat.named
  futures := same.futures ▸ neat.futures
  kept := same.futures ▸ neat.kept

theorem own (same : session.Untouched next) (id : ThreadId) : session.Own id next where
  spawned := same.spawned
  workers := same.workers
  handles other _ := by rw [handlesOf, same.handles, handlesOf]
  futures other _ := by rw [futuresOf, same.futures, futuresOf]

end Untouched

end Script.Session

namespace Process

variable {process next last : Process Session} {active : List Nat} {id : ThreadId}
  {others : List Chain}

/-- What a run never undoes. -/
structure Grown (process last : Process Session) : Prop where
  spawned : process.client.spawned ≤ last.client.spawned
  workers : process.client.workers ⊆ last.client.workers
  torn : ∀ id, (process.thread id).live = false → (last.thread id).live = false

theorem Grown.refl (process : Process Session) : process.Grown process :=
  ⟨Nat.le_refl _, List.Subset.refl _, fun _ torn => torn⟩

theorem Grown.trans (first : process.Grown next) (second : next.Grown last) :
    process.Grown last :=
  ⟨Nat.le_trans first.spawned second.spawned, List.Subset.trans first.workers second.workers,
    fun id torn => second.torn id (first.torn id torn)⟩

theorem Grown.attends (grown : process.Grown last) (attends : process.client.Attends active id) :
    last.client.Attends active id := by
  cases id with
  | main => trivial
  | worker name => exact grown.workers attends
  | spawned index => exact ⟨attends.1, Nat.le_trans attends.2 grown.spawned⟩

/-- The thread has nothing at all. -/
structure Quiet (process : Process Session) (id : ThreadId) : Prop where
  thread : (process.thread id).Bare
  handles : process.client.handlesOf id = []
  futures : (process.client.futuresOf id).keys = []

/-- The registry counts the references of the threads, of the session and the others given,
and no thread has anything that is not attended to. -/
structure Accounted (active : List Nat) (process : Process Session) (others : List Chain) :
    Prop where
  custody : process.Custody Session.references others
  neat : process.client.Neat
  idle : ∀ id, ¬ process.client.Attends active id → process.Quiet id

theorem start_accounted : (start Session.start).Accounted [] [] where
  custody := start_custody rfl
  neat := Session.start_neat
  idle _ _ := ⟨⟨rfl, rfl⟩, rfl, rfl⟩

theorem Accounted.perm (accounted : process.Accounted active others) {same : List Chain}
    (order : others.Perm same) : process.Accounted active same :=
  { accounted with custody := accounted.custody.perm order }

/-- A thread that is attended to moves, and the registry goes along. -/
theorem Accounted.moved (accounted : process.Accounted active others)
    (attends : process.client.Attends active id) {found : List Misuse} {after : Thread}
    (moved : Moved id process last found after) {rest : List Chain}
    (custody : last.Custody Session.references rest) : last.Accounted active rest where
  custody := custody
  neat := moved.client ▸ accounted.neat
  idle other unattended := by
    rw [moved.client] at unattended
    have apart : id ≠ other := fun same => unattended (same ▸ attends)
    obtain ⟨thread, handles, futures⟩ := accounted.idle other unattended
    exact ⟨moved.others other apart ▸ thread, moved.client ▸ handles, moved.client ▸ futures⟩

theorem Grown.of_moved {found : List Misuse} {after : Thread}
    (moved : Moved id process last found after)
    (torn : (process.thread id).live = false → after.live = false) : process.Grown last where
  spawned := Nat.le_of_eq (by rw [moved.client])
  workers := by rw [moved.client]; exact List.Subset.refl _
  torn other dead := by
    by_cases same : id = other
    · subst same
      exact moved.own ▸ torn dead
    · rwa [moved.others other same]

/-- The session changes, and a reference that it gains or loses goes to or comes from
someone else. -/
theorem Accounted.client (accounted : process.Accounted active others)
    (attends : process.client.Attends active id) {session : Session} {rest : List Chain}
    (neat : session.Neat) (own : process.client.Own id session)
    (moved : (process.client.references ++ others).Perm (session.references ++ rest)) :
    ({ process with client := session } : Process Session).Accounted active rest where
  custody := accounted.custody.client moved
  neat := neat
  idle other unattended := by
    have before : ¬ process.client.Attends active other := by
      intro attends
      refine unattended ?_
      cases other with
      | main => trivial
      | worker name => exact own.workers attends
      | spawned index => exact ⟨attends.1, Nat.le_trans attends.2 own.spawned⟩
    have apart : id ≠ other := fun same => before (same ▸ attends)
    obtain ⟨thread, handles, futures⟩ := accounted.idle other before
    exact ⟨thread, (own.handles other apart).trans handles,
      (congrArg Table.keys (own.futures other apart)).trans futures⟩

end Process

/-! ## What acts are given and what they leave -/

namespace Script

/-- What is known of a session and of the references given besides. -/
abbrev Claim :=
  Session → List Chain → Prop

/-- Nothing is left to be polled again. -/
def Session.Calm (session : Session) : Prop :=
  session.suspended = none

/-- Something is known of the session, and the references given are these. -/
def Given (fact : Session → Prop) (given : List Chain) : Claim :=
  fun session own => fact session ∧ own.Perm given

abbrev Calm (given : List Chain) : Claim :=
  Given Session.Calm given

/-- Some more references come to those that a claim is about. -/
def Claim.with (claim : Claim) (more : List Chain) : Claim :=
  fun session own => ∃ front, claim session front ∧ own.Perm (front ++ more)

/-- The claim is about a session that is known. -/
def Claim.at (claim : Claim) (known : Session) : Claim :=
  fun session own => session = known ∧ claim session own

variable {α β : Type} {id : ThreadId} {act : Run α} {next : α → Run β} {close : Run Unit}

/-- The claim holds of what the session is and of what is referred to besides it and besides
the references of others, which the registry all counts. -/
def Claim.Holds (claim : Claim) (active : List Nat) (others : List Chain)
    (process : Process Session) : Prop :=
  ∃ own, claim process.client own ∧ process.Accounted active (own ++ others)

namespace Claim.Holds

variable {claim weaker : Claim} {active : List Nat} {others more : List Chain}
  {process : Process Session}

theorem imp (holds : claim.Holds active others process)
    (implies : ∀ session own, claim session own → weaker session own) :
    weaker.Holds active others process := by
  obtain ⟨own, known, accounted⟩ := holds
  exact ⟨own, implies _ _ known, accounted⟩

/-- References that come besides may as well be those of others. -/
theorem with_iff :
    (claim.with more).Holds active others process ↔
      claim.Holds active (more ++ others) process := by
  constructor
  · rintro ⟨own, ⟨front, known, order⟩, accounted⟩
    refine ⟨front, known, accounted.perm ?_⟩
    rw [← List.append_assoc]
    exact order.append_right others
  · rintro ⟨own, known, accounted⟩
    exact ⟨own ++ more, ⟨own, known, .refl _⟩, by rwa [List.append_assoc]⟩

end Claim.Holds

/-- What a run leaves of the references that it was given, by its outcome. -/
structure Transferred (active : List Nat) (process : Process Session) (others : List Chain)
    (after : α → Claim) (lost : Claim) (result : Outcome α × Process Session) : Prop where
  grown : process.Grown result.2
  value : ∀ value, result.1 = .value value → (after value).Holds active others result.2
  panic : ∀ panic, result.1 = .panic panic → lost.Holds active others result.2

/-- On its thread the act makes of what it is given what it leaves with a value or, if it
panics, what is lost then. -/
def Transfers (id : ThreadId) (act : Run α) (before : Claim) (after : α → Claim) (lost : Claim) :
    Prop :=
  ∀ (active : List Nat) (others : List Chain) (context : Context) (process : Process Session),
    context.thread = id → process.client.Attends active id →
      before.Holds active others process →
        Transferred active process others after lost (act context process)

namespace Transfers

variable {before lost final : Claim} {after : α → Claim} {last : β → Claim}

theorem of_value {value : Context → Process Session → α}
    (run : ∀ context process, (act context process).1 = .value (value context process))
    (leaves : ∀ {active : List Nat} {others : List Chain} (context : Context)
      (process : Process Session), context.thread = id → process.client.Attends active id →
        before.Holds active others process → process.Grown (act context process).2 ∧
          (after (value context process)).Holds active others (act context process).2) :
    Transfers id act before after lost := by
  intro active others context process here attends holds
  obtain ⟨grown, left⟩ := leaves context process here attends holds
  refine ⟨grown, fun value same => ?_, fun panic same => ?_⟩
  · rw [run] at same
    exact Outcome.value.inj same ▸ left
  · rw [run] at same
    contradiction

theorem conseq {before' lost' : Claim} {after' : α → Claim}
    (transfers : Transfers id act before after lost)
    (start : ∀ session own, before' session own → before session own)
    (value : ∀ value session own, after value session own → after' value session own)
    (panic : ∀ session own, lost session own → lost' session own) :
    Transfers id act before' after' lost' := by
  intro active others context process here attends holds
  obtain ⟨grown, values, panics⟩ :=
    transfers active others context process here attends (holds.imp start)
  exact ⟨grown, fun found ends => (values found ends).imp (value found),
    fun found ends => (panics found ends).imp panic⟩

/-- More may be known when the act is begun. -/
theorem of_start {before' : Claim} (transfers : Transfers id act before after lost)
    (start : ∀ session own, before' session own → before session own) :
    Transfers id act before' after lost :=
  transfers.conseq start (fun _ _ _ fact => fact) fun _ _ fact => fact

/-- What is known whenever the act is begun may be used to show what it does. -/
theorem of_fact {fact : Prop} (known : ∀ session own, before session own → fact)
    (transfers : fact → Transfers id act before after lost) :
    Transfers id act before after lost := by
  rintro active others context process here attends ⟨own, start, accounted⟩
  exact transfers (known _ _ start) active others context process here attends
    ⟨own, start, accounted⟩

/-- Whatever the session is when the act is begun, the act does what it does then. -/
theorem of_each
    (each : ∀ session, session.Neat → Transfers id act (before.at session) after lost) :
    Transfers id act before after lost := by
  rintro active others context process here attends ⟨own, known, accounted⟩
  exact each process.client accounted.neat active others context process here attends
    ⟨own, ⟨rfl, known⟩, accounted⟩

theorem pure {value : α} (fact : ∀ session own, before session own → after value session own) :
    Transfers id (Pure.pure value) before after lost :=
  of_value (fun _ _ => rfl) fun _ process _ _ holds => ⟨.refl process, holds.imp fact⟩

/-- Nothing is done with what is given. -/
theorem keep (value : α) : Transfers id (Pure.pure value) before (fun _ => before) lost :=
  .pure fun _ _ fact => fact

theorem raise {panic : Panic} (fact : ∀ session own, before session own → lost session own) :
    Transfers id (Act.raise panic) before after lost :=
  fun _ _ _ process _ _ holds => ⟨.refl process, nofun, fun _ _ => holds.imp fact⟩

theorem bind (first : Transfers id act before after lost)
    (second : ∀ value, Transfers id (next value) (after value) last lost) :
    Transfers id (act >>= next) before last lost := by
  intro active others context process here attends holds
  have start := first active others context process here attends holds
  rw [Act.bind_apply]
  cases run : act context process with
  | mk outcome middle =>
      rw [run] at start
      cases outcome with
      | value value =>
          have rest := second value active others context middle here (start.grown.attends attends)
            (start.value value rfl)
          exact ⟨start.grown.trans rest.grown, rest.value, rest.panic⟩
      | panic panic => exact ⟨start.grown, nofun, fun _ _ => start.panic panic rfl⟩

/-- A panic that is stopped may leave just what a value does. -/
theorem attempt {left : Claim} (transfers : Transfers id act before (fun _ => left) left) :
    Transfers id (Act.attempt act) before (fun _ => left) lost := by
  intro active others context process here attends holds
  have ended := transfers active others context process here attends holds
  refine ⟨ended.grown, fun _ _ => ?_, nofun⟩
  cases outcome : (act context process).1 with
  | value value => exact ended.value value outcome
  | panic panic => exact ended.panic panic outcome

theorem conclude {left : Claim} (outcome : Outcome α) :
    Transfers id (Act.conclude outcome) left (fun _ => left) left := by
  cases outcome with
  | value value => exact .keep value
  | panic panic => exact .raise fun _ _ fact => fact

/-- A close that happens only after a panic. -/
theorem onPanic {middle : Claim} (body : Transfers id act before after middle)
    (closes : Transfers id close middle (fun _ => lost) lost) :
    Transfers id (act.onPanic close) before after lost := by
  intro active others context process here attends holds
  have start := body active others context process here attends holds
  cases outcome : (act context process).1 with
  | value found =>
      rw [Act.onPanic_of_value outcome]
      refine ⟨start.grown, start.value, fun raised same => ?_⟩
      rw [outcome] at same
      contradiction
  | panic raised =>
      have closed : Transfers id (Act.attempt close) middle (fun _ => lost) lost := closes.attempt
      have ended := closed active others { context with unwinding := true } (act context process).2
        here (start.grown.attends attends) (start.panic raised outcome)
      rw [Act.onPanic_of_panic close outcome]
      exact ⟨start.grown.trans ended.grown, nofun, fun _ _ => ended.value _ rfl⟩

/-- A close that a body ends with in any case. -/
theorem ensuring {middle : Claim} {closed : α → Claim}
    (body : Transfers id act before closed middle)
    (value : ∀ value, Transfers id close (closed value) (fun _ => after value) lost)
    (panic : Transfers id close middle (fun _ => lost) lost) :
    Transfers id (act.ensuring close) before after lost := by
  rw [Act.ensuring_eq_onPanic]
  exact (body.onPanic panic).bind fun found =>
    (value found).bind fun _ => .pure fun _ _ fact => fact

theorem holding (captors : List CaptorId) (transfers : Transfers id act before after lost) :
    Transfers id (Act.holding captors act) before after lost :=
  fun active others context process =>
    transfers active others { context with held := captors ++ context.held } process

/-- What is given besides is left besides. -/
theorem frame (transfers : Transfers id act before after lost) (more : List Chain) :
    Transfers id act (before.with more) (fun value => (after value).with more)
      (lost.with more) := by
  intro active others context process here attends holds
  obtain ⟨grown, values, panics⟩ := transfers active (more ++ others) context process here
    attends (Claim.Holds.with_iff.mp holds)
  exact ⟨grown, fun value same => Claim.Holds.with_iff.mpr (values value same),
    fun panic same => Claim.Holds.with_iff.mpr (panics panic same)⟩

end Transfers

/-! ## Acts of the library -/

/-- The act does what it does to its thread and to the registry, and does not give the thread
back its slots. -/
def Steady (act : Run α) : Prop :=
  ∀ (id : ThreadId) (thread : Thread), ∃ value found after, act.Moves id thread value found after ∧
    (thread.live = false → after.live = false)

/-- The act is steady and finds no misuse. -/
def Silent (act : Run α) : Prop :=
  ∀ (id : ThreadId) (thread : Thread), ∃ value after, act.Moves id thread value [] after ∧
    (thread.live = false → after.live = false)

namespace Transfers

variable {before lost : Claim} {after : α → Claim}

theorem of_settles (steady : Steady act)
    (each : ∀ session given, before session given → ∃ left gone,
      Act.Settles Session.references act given left gone ∧
        (∀ value, after value session (left value)) ∧ lost session gone) :
    Transfers id act before after lost := by
  rintro active others context process here attends ⟨given, known, accounted⟩
  subst here
  obtain ⟨left, gone, settles, values, panics⟩ := each _ _ known
  obtain ⟨value, found, last, moves, torn⟩ := steady context.thread (process.thread context.thread)
  obtain ⟨-, moved⟩ := moves context process rfl rfl
  have settled := settles context process others accounted.custody
  have grown : process.Grown (act context process).2 := .of_moved moved torn
  refine ⟨grown, fun value same => ?_, fun panic same => ?_⟩
  · rw [same] at settled
    exact ⟨left value, moved.client ▸ values value, accounted.moved attends moved settled⟩
  · rw [same] at settled
    exact ⟨gone, moved.client ▸ panics, accounted.moved attends moved settled⟩

/-- What finds no misuse does not panic. -/
theorem of_silent (silent : Silent act)
    (each : ∀ session given, before session given → ∃ left,
      Act.Settles Session.references act given left [] ∧
        ∀ value, after value session (left value)) :
    Transfers id act before after lost := by
  rintro active others context process here attends ⟨given, known, accounted⟩
  subst here
  obtain ⟨left, settles, values⟩ := each _ _ known
  obtain ⟨value, last, moves, torn⟩ := silent context.thread (process.thread context.thread)
  obtain ⟨outcome, moved⟩ := moves context process rfl rfl
  have settled := settles context process others accounted.custody
  rw [outcome, Outcome.raising] at settled
  refine ⟨.of_moved moved torn, fun found same => ?_, fun panic same => ?_⟩
  · rw [outcome] at same
    cases same
    exact ⟨left value, moved.client ▸ values value, accounted.moved attends moved settled⟩
  · rw [outcome] at same
    contradiction

/-- A session that is read stays known until the next act. -/
theorem reading {next : Session → Run β} {last : β → Claim}
    (rest : ∀ session, session.Neat → Transfers id (next session) (before.at session) last lost) :
    Transfers id (Run.session >>= next) before last lost := by
  rintro active others context process here attends ⟨own, known, accounted⟩
  exact rest process.client accounted.neat active others context process here attends
    ⟨own, ⟨rfl, known⟩, accounted⟩

theorem forget (session : Session) (transfers : Transfers id act before after lost) :
    Transfers id act (before.at session) after lost :=
  transfers.of_start fun _ _ fact => fact.2

/-- The act knows on which thread it is. -/
theorem threadId {next : ThreadId → Run β} {last : β → Claim}
    (rest : Transfers id (next id) before last lost) :
    Transfers id (Run.threadId >>= next) before last lost :=
  fun active others context process here => here ▸ rest active others context process here

theorem modify {change : Session → Session} {after : Claim}
    (each : ∀ session given, session.Neat → before session given →
      (change session).Neat ∧ session.Own id (change session) ∧
        ∃ left, after (change session) left ∧
          (session.references ++ given).Perm ((change session).references ++ left)) :
    Transfers id (Run.modify change) before (fun _ => after) lost := by
  refine .of_value (fun _ _ => rfl) ?_
  rintro active others context process here attends ⟨given, known, accounted⟩
  obtain ⟨neat, own, left, fact, moved⟩ := each process.client given accounted.neat known
  have shifted : (process.client.references ++ (given ++ others)).Perm
      ((change process.client).references ++ (left ++ others)) := by
    rw [← List.append_assoc, ← List.append_assoc]
    exact moved.append_right others
  exact ⟨⟨own.spawned, own.workers, fun _ torn => torn⟩, left, fact,
    accounted.client attends neat own shifted⟩

/-- What does not refer to anything may change. -/
theorem untouched {change : Session → Session} {after : Claim}
    (same : ∀ session : Session, session.Untouched (change session))
    (learns : ∀ session own, before session own → after (change session) own) :
    Transfers id (Run.modify change) before (fun _ => after) lost := by
  refine .modify fun session own neat known => ?_
  refine ⟨(same session).neat neat, (same session).own id, own, learns session own known, ?_⟩
  rw [(same session).references]

/-! ## Calls -/

/-- A body in a call of a snapshot that is referred to meanwhile. -/
theorem inside {snapshot : Snapshot} (transfers : Transfers id act before after lost)
    (has : ∀ session own, before session own → snapshot.chain = [] ∨ snapshot.chain ∈ own)
    (panics : ∀ value session own, after value session own → lost session own) :
    Transfers id (snapshot.run act) before after lost := by
  cases reached : snapshot.chain with
  | nil =>
      rw [Snapshot.run_of_empty reached]
      exact transfers
  | cons innermost outer =>
      rw [Snapshot.run_eq_enter reached]
      have enters : Transfers id (snapshot.enter innermost : Run _) before
          (fun entered => before.with entered.2.references) lost := by
        refine .of_silent (fun id thread => ⟨_, _, snapshot.enter_moves innermost id thread, ?_⟩) ?_
        · simp
        · intro session given known
          have member : snapshot.chain ∈ given :=
            (has session given known).resolve_left (by simp [reached])
          exact ⟨_, Snapshot.enter_settles innermost member,
            fun entered => ⟨given, known, List.perm_append_comm⟩⟩
      refine enters.bind fun entered => ?_
      have body := (transfers.frame entered.2.references).holding
        (entered.1.flatMap Scope.captors)
      have gives (claim : Claim) (fine : ∀ session own, claim session own → lost session own) :
          Transfers id (entered.2.finish : Run Unit) (claim.with entered.2.references)
            (fun _ => claim) lost := by
        refine .of_settles (fun id thread => ⟨_, _, _, entered.2.finish_moves id thread, ?_⟩) ?_
        · simp
        · rintro session given ⟨front, known, order⟩
          have start : given.Perm (entered.2.references ++ front) :=
            order.trans List.perm_append_comm
          exact ⟨_, _, entered.2.finish_settles.perm start (fun _ => .refl _) (.refl _),
            fun _ => known, fine session front known⟩
      have closes (claim : Claim) (fine : ∀ session own, claim session own → lost session own) :
          Transfers id (Scope.finishAll entered.1 : Run Unit) claim (fun _ => claim) lost := by
        refine .of_settles
          (fun id thread => ⟨_, _, _, Scope.finishAll_moves entered.1 id thread, ?_⟩) ?_
        · simp [Scope.closedAll]
        · intro session given known
          exact ⟨_, _, Scope.finishAll_settles entered.1, fun _ => known, fine session given known⟩
      have given := body.ensuring (fun value => gives _ (panics value))
        (gives _ fun _ _ fact => fact)
      exact given.ensuring (fun value => closes _ (panics value)) (closes _ fun _ _ fact => fact)

theorem insideAll {snapshots : List Snapshot} (transfers : Transfers id act before after lost)
    (has : ∀ snapshot ∈ snapshots, ∀ session own, before session own →
      snapshot.chain = [] ∨ snapshot.chain ∈ own)
    (panics : ∀ value session own, after value session own → lost session own) :
    Transfers id (Snapshot.runAll snapshots act) before after lost := by
  induction snapshots with
  | nil => exact transfers
  | cons snapshot rest ih =>
      have inner := ih fun other member => has other (.tail _ member)
      exact inner.inside (has snapshot (.head _)) panics

end Transfers

/-- What is known of the session stays so, and the references given become others. -/
abbrev Exchanges (fact : Session → Prop) (id : ThreadId) (act : Run α) (given : List Chain)
    (left : α → List Chain) (lost : List Chain) : Prop :=
  Transfers id act (Given fact given) (fun value => Given fact (left value)) (Given fact lost)

/-- The act leaves just what it is given, however it ends. -/
def Neutral (id : ThreadId) (act : Run α) : Prop :=
  ∀ rest, Exchanges Session.Calm id act rest (fun _ => rest) rest

/-- What finds no misuse leaves what it settles, and nothing is lost. -/
theorem Transfers.silently {fact : Session → Prop} {given : List Chain} {left : α → List Chain}
    {final : Claim} (silent : Silent act)
    (settles : Act.Settles Session.references act given left []) :
    Transfers id act (Given fact given) (fun value => Given fact (left value)) final := by
  refine Transfers.of_silent silent ?_
  rintro session own ⟨known, order⟩
  exact ⟨left, settles.perm order (fun _ => .refl _) (.refl _), fun _ => ⟨known, .refl _⟩⟩

namespace Exchanges

variable {fact : Session → Prop} {given lost : List Chain} {left : α → List Chain}

theorem of_settles (steady : Steady act)
    (settles : Act.Settles Session.references act given left lost) :
    Exchanges fact id act given left lost := by
  refine Transfers.of_settles steady ?_
  rintro session own ⟨calm, order⟩
  exact ⟨left, lost, settles.perm order (fun _ => .refl _) (.refl _), fun _ => ⟨calm, .refl _⟩,
    calm, .refl _⟩

theorem perm {given' lost' : List Chain} {left' : α → List Chain}
    (exchanges : Exchanges fact id act given left lost) (start : given'.Perm given)
    (value : ∀ value, (left value).Perm (left' value)) (panic : lost.Perm lost') :
    Exchanges fact id act given' left' lost' :=
  exchanges.conseq (fun _ _ fact => ⟨fact.1, fact.2.trans start⟩)
    (fun found _ _ fact => ⟨fact.1, fact.2.trans (value found)⟩)
    fun _ _ fact => ⟨fact.1, fact.2.trans panic⟩

end Exchanges

end Script

end Ambient
