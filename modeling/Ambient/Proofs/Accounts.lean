import Ambient.Proofs.Scenes

/-!
# Accounts of what a thread does

An account tells what comes of an act without looking at the thread: the outcome,
what is written down, and the misuses found on the way.  An act follows its account
on every thread that is in a certain state if it comes to what the account tells and
leaves the thread in such a state again.  Accounts are put together as acts are, so
that only the starts and ends of scopes have to be looked into.
-/

namespace Ambient

/-! ## Threads that spawn threads -/

namespace ThreadId

/-- A thread that is not spawned while their number goes from one to another. -/
def Outside (first last : Nat) (id : ThreadId) : Prop :=
  ∀ index, id = .spawned index → index ≤ first ∨ last < index

theorem Outside.narrow {first last start stop : Nat} {id : ThreadId}
    (outside : id.Outside first last) (later : first ≤ start) (earlier : stop ≤ last) :
    id.Outside start stop := by
  intro index same
  have bound := outside index same
  omega

end ThreadId

namespace Process

/-- The notebook and the count of a thread, as a meaning hands them on. -/
def ledger (process : Process Notebook) (id : ThreadId) : Ledger :=
  ⟨process.client, (process.thread id).opened⟩

/-- Threads are still to be spawned under the numbers after those spent. -/
def Spare (process : Process Notebook) (id : ThreadId) : Prop :=
  ∀ index, process.client.spawned < index →
    id ≠ .spawned index ∧ process.thread (.spawned index) = .fresh

theorem start_spare (notebook : Notebook) : (start notebook).Spare .main :=
  fun _ _ => ⟨by simp, rfl⟩

/-- A run on a thread changes no other threads but those it spawns. -/
structure Spawns (id : ThreadId) (process last : Process Notebook) : Prop where
  spawned : process.client.spawned ≤ last.client.spawned
  others : ∀ other, other ≠ id →
    other.Outside process.client.spawned last.client.spawned →
      last.thread other = process.thread other

namespace Spawns

variable {id : ThreadId} {process next last : Process Notebook}

theorem spare (spawns : Spawns id process last) (spare : process.Spare id) :
    last.Spare id := by
  intro index later
  rcases spare index (Nat.lt_of_le_of_lt spawns.spawned later) with ⟨distinct, fresh⟩
  refine ⟨distinct, ?_⟩
  rw [spawns.others (.spawned index) (Ne.symm distinct), fresh]
  rintro other same
  exact .inr (ThreadId.spawned.inj same ▸ later)

theorem trans (first : Spawns id process next) (second : Spawns id next last) :
    Spawns id process last where
  spawned := Nat.le_trans first.spawned second.spawned
  others other distinct apart := by
    have front := first.others other distinct (apart.narrow (Nat.le_refl _) second.spawned)
    have back := second.others other distinct (apart.narrow first.spawned (Nat.le_refl _))
    exact back.trans front

/-- Only the thread has moved. -/
theorem of_moved {found : List Misuse} {after : Thread}
    (moved : Moved id process last found after) : Spawns id process last where
  spawned := Nat.le_of_eq (by rw [moved.client])
  others other distinct _ := moved.others other (Ne.symm distinct)

/-- Only what is written down has changed. -/
theorem of_client {change : Notebook → Notebook}
    (same : ∀ notebook, (change notebook).spawned = notebook.spawned) :
    Spawns id process { process with client := change process.client } where
  spawned := Nat.le_of_eq (same process.client).symm
  others _ _ _ := rfl

end Spawns

/-- The process that a thread about to be spawned starts in. -/
def spawning (process : Process Notebook) : Process Notebook :=
  { process with client := process.client.spawn }

/-- A thread is in one of some states, with threads to spare. -/
structure Ready (id : ThreadId) (stage : Thread → Prop) (process : Process Notebook) :
    Prop where
  stage : stage (process.thread id)
  spare : process.Spare id

/-- Nothing is in scope on a thread that is spawned. -/
theorem Spare.spawning {id : ThreadId} {process : Process Notebook}
    (spare : process.Spare id) :
    process.spawning.Ready process.client.nextThread
      (·.Shows (.bare process.client.nextThread)) := by
  constructor
  · have fresh := (spare (process.client.spawned + 1) (Nat.lt_succ_self _)).2
    exact fresh ▸ Thread.shows_fresh process.client.nextThread
  · intro index later
    have bound : process.client.spawned + 1 < index := later
    constructor
    · intro same
      exact Nat.ne_of_lt bound (ThreadId.spawned.inj same)
    · exact (spare index (Nat.lt_of_succ_lt bound)).2

/-- A thread that is spawned and torn down leaves the one that spawns it alone. -/
theorem Spawns.of_spawned {id : ThreadId} {process left last : Process Notebook}
    {after : Thread} (spare : process.Spare id)
    (spawns : Spawns process.client.nextThread process.spawning left)
    (tear : Moved process.client.nextThread left last [] after) :
    Spawns id process last ∧ last.thread id = process.thread id := by
  have grown : process.client.spawned + 1 ≤ left.client.spawned := spawns.spawned
  have others : ∀ other : ThreadId,
      other.Outside process.client.spawned left.client.spawned →
        last.thread other = process.thread other := by
    intro other outside
    have distinct : process.client.nextThread ≠ other := by
      intro same
      have bound := outside (process.client.spawned + 1) same.symm
      omega
    have same := spawns.others other (Ne.symm distinct)
      (outside.narrow (Nat.le_succ _) (Nat.le_refl _))
    exact (tear.others other distinct).trans same
  refine ⟨⟨?_, fun other _ outside => ?_⟩, ?_⟩
  · rw [tear.client]
    exact Nat.le_of_succ_le grown
  · rw [tear.client] at outside
    exact others other outside
  · apply others
    -- The thread that spawns has a number that was never spare.
    intro index same
    by_contra between
    have later : process.client.spawned < index := by omega
    exact (spare index later).1 same

end Process

/-- A thread is torn down whatever the outcome of its act, which goes on. -/
theorem Block.entirely_apply (act : Act Notebook Unit) (context : Context)
    (process : Process Notebook) :
    entirely act context process =
      ((act context process).1, (Act.tearDown context (act context process).2).2) := by
  cases run : act context process with
  | mk outcome left =>
      simp only [entirely, Act.bind_apply, Act.attempt, run]
      cases outcome <;> rfl

/-! ## Accounts -/

/-- Whether a misuse that is found is raised. -/
def Context.raises (context : Context) : Bool :=
  context.build = .debug ∧ context.unwinding = false

/-- What the end of a scope comes to that finds some misuses. -/
def Outcome.ending (raises : Bool) : List Misuse → Outcome Unit
  | [] => .value ()
  | misuse :: _ => if raises then .panic (.misused misuse) else .value ()

theorem Outcome.raising_eq_ending (context : Context) (found : List Misuse) :
    Outcome.raising context () found = Outcome.ending context.raises found := by
  cases found <;> simp [Outcome.raising, Outcome.ending, Context.raises]

/-- What comes of an act: its outcome, what it hands on, and the misuses it finds. -/
structure Account where
  outcome : Outcome Unit
  ledger : Ledger
  found : List Misuse
deriving DecidableEq, Repr

namespace Account

/-- Nothing is out of order. -/
def silent (result : Outcome Unit × Ledger) : Account :=
  ⟨result.1, result.2, []⟩

def andThen (first : Account) (next : Ledger → Account) : Account :=
  match first.outcome with
  | .value _ =>
      let second := next first.ledger
      { second with found := first.found ++ second.found }
  | .panic _ => first

/-- The end of a scope, which finds some misuses, after a body. -/
def closing (raises : Bool) (faults : List Misuse) (body : Account) : Account :=
  { body with
    outcome :=
      match body.outcome with
      | .value _ => Outcome.ending raises faults
      | .panic panic => .panic panic
    found := body.found ++ faults }

/-- The outcome of a body is written down and goes no further. -/
def caught (next : Outcome Unit → Observation) (body : Account) : Account :=
  { body with outcome := .value (), ledger := body.ledger.note (next body.outcome) }

theorem silent_andThen (first : Outcome Unit × Ledger)
    (next : Ledger → Outcome Unit × Ledger) :
    (silent first).andThen (fun ledger => silent (next ledger)) =
      silent (match first with
        | (.value _, ledger) => next ledger
        | (.panic panic, ledger) => (.panic panic, ledger)) := by
  rcases first with ⟨⟨value⟩ | ⟨panic⟩, ledger⟩ <;> rfl

theorem closing_nil (raises : Bool) (body : Account) : body.closing raises [] = body := by
  rcases body with ⟨⟨value⟩ | ⟨panic⟩, ledger, found⟩ <;>
    simp [closing, Outcome.ending]

end Account

/-- A result is as told, and the thread is in one of the states again. -/
structure Fulfils (id : ThreadId) (stage : Thread → Prop) (process : Process Notebook)
    (result : Outcome Unit × Process Notebook) (account : Account) : Prop where
  outcome : result.1 = account.outcome
  ledger : result.2.ledger id = account.ledger
  misuses : result.2.misuses = process.misuses ++ account.found
  stage : stage (result.2.thread id)
  spawns : Process.Spawns id process result.2

/-- An act comes to what is told wherever the thread is in one of the states.  What
is told may depend on whether misuses are raised. -/
def Follows (id : ThreadId) (stage : Thread → Prop) (act : Act Notebook Unit)
    (account : Bool → Ledger → Account) : Prop :=
  ∀ (context : Context) (process : Process Notebook),
    context.thread = id → process.Ready id stage →
      Fulfils id stage process (act context process)
        (account context.raises (process.ledger id))

namespace Follows

variable {id : ThreadId} {stage : Thread → Prop} {first second act : Act Notebook Unit}
  {account account' : Bool → Ledger → Account}

/-- The same account may be given in other words. -/
theorem congr (follows : Follows id stage act account)
    (same : ∀ raises ledger, account raises ledger = account' raises ledger) :
    Follows id stage act account' :=
  fun context process here ready =>
    same context.raises (process.ledger id) ▸ follows context process here ready

theorem write {change : Notebook → Notebook}
    (same : ∀ notebook, (change notebook).spawned = notebook.spawned) :
    Follows id stage (Act.modifyClient change)
      fun _ ledger => .silent (.value (), ledger.write change) :=
  fun _ _ _ ready => ⟨rfl, rfl, (List.append_nil _).symm, ready.stage, .of_client same⟩

theorem note (observation : Observation) :
    Follows id stage (Block.note observation)
      fun _ ledger => .silent (.value (), ledger.note observation) :=
  write fun _ => rfl

theorem raise (panic : Panic) :
    Follows id stage (Act.raise panic) fun _ ledger => .silent (.panic panic, ledger) :=
  fun _ _ _ ready =>
    ⟨rfl, rfl, (List.append_nil _).symm, ready.stage, .of_client fun _ => rfl⟩

theorem done : Follows id stage (pure ()) fun _ ledger => .silent (.value (), ledger) :=
  fun _ _ _ ready =>
    ⟨rfl, rfl, (List.append_nil _).symm, ready.stage, .of_client fun _ => rfl⟩

theorem andThen (front : Follows id stage first account)
    (back : Follows id stage second account') :
    Follows id stage (first >>= fun _ => second) fun raises ledger =>
      (account raises ledger).andThen (account' raises) := by
  intro context process here ready
  obtain ⟨outcome, ledger, misuses, staged, spawns⟩ := front context process here ready
  beta_reduce
  rw [Act.bind_apply, Account.andThen, ← outcome, ← ledger]
  cases run : first context process with
  | mk result next =>
      rw [run] at misuses staged spawns outcome ledger
      cases result with
      | value value =>
          have rest := back context next here ⟨staged, spawns.spare ready.spare⟩
          refine ⟨rest.outcome, rest.ledger, ?_, rest.stage, spawns.trans rest.spawns⟩
          rw [rest.misuses, misuses, List.append_assoc]
      | panic panic => exact ⟨outcome, ledger, misuses, staged, spawns⟩

theorem attempt (body : Follows id stage act account)
    (next : Outcome Unit → Observation) :
    Follows id stage (Act.attempt act >>= fun outcome => Block.note (next outcome))
      fun raises ledger => (account raises ledger).caught next := by
  intro context process here ready
  obtain ⟨outcome, ledger, misuses, staged, spawns⟩ := body context process here ready
  beta_reduce
  rw [Account.caught, ← outcome, ← ledger]
  exact ⟨rfl, rfl, misuses, staged, spawns.trans (.of_client fun _ => rfl)⟩

/-- An act that only looks at the thread sees what all the states show. -/
theorem seeing {α : Type} {look : Act Notebook α} {value : α} {next : α → Act Notebook Unit}
    (moves : ∀ thread, stage thread → look.Moves id thread value [] thread)
    (rest : Follows id stage (next value) account) :
    Follows id stage (look >>= next) account := by
  intro context process here ready
  obtain ⟨outcome, moved⟩ := moves _ ready.stage context process here rfl
  have spawns := Process.Spawns.of_moved moved
  have same : (look context process).2.ledger id = process.ledger id := by
    rw [Process.ledger, Process.ledger, moved.own, moved.client]
  have last := rest context _ here ⟨moved.own ▸ ready.stage, spawns.spare ready.spare⟩
  rw [Act.bind_of_value outcome]
  rw [same] at last
  refine ⟨last.outcome, last.ledger, ?_, last.stage, spawns.trans last.spawns⟩
  rw [last.misuses, moved.misuses, List.append_nil]

theorem reading {next : Notebook → Act Notebook Unit}
    {account : Notebook → Bool → Ledger → Account}
    (rest : ∀ notebook, Follows id stage (next notebook) (account notebook)) :
    Follows id stage (Act.client >>= next) fun raises ledger =>
      account ledger.notebook raises ledger :=
  fun context process here ready => rest process.client context process here ready

theorem holding (captors : List CaptorId) (body : Follows id stage act account) :
    Follows id stage (Act.holding captors act) account :=
  fun _ process here ready => body _ process here ready

/-- A body between a start and an end whose misuses are known. -/
theorem bracket {inner : Thread → Prop} {close : Act Notebook Unit} {entered : Thread}
    {after : Thread → Thread} {faults : List Misuse} {context place : Context}
    {process next : Process Notebook} (body : Follows id inner first account)
    (spare : process.Spare id) (enter : Process.Moved id process next [] entered)
    (shown : inner entered)
    (leave : ∀ left, inner left → close.Moves id left () faults (after left) ∧
      stage (after left) ∧ (after left).opened = left.opened)
    (here : context.thread = id) (there : place.thread = id)
    (raises : place.raises = context.raises)
    (acts : act context next = first place next) :
    Fulfils id stage process (act.ensuring close context next)
      ((account context.raises ⟨process.client, entered.opened⟩).closing
        context.raises faults) := by
  have entering := Process.Spawns.of_moved enter
  have handed : next.ledger id = ⟨process.client, entered.opened⟩ := by
    rw [Process.ledger, enter.own, enter.client]
  obtain ⟨outcome, ledger, misuses, staged, spawns⟩ :=
    body place next there ⟨enter.own ▸ shown, entering.spare spare⟩
  rw [handed, raises, ← acts] at outcome
  rw [handed, raises, ← acts] at ledger misuses
  rw [← acts] at staged spawns
  obtain ⟨moves, settled, counted⟩ := leave _ staged
  have closed := moves.close act here rfl
  refine ⟨?_, ?_, ?_, closed.own ▸ settled,
    entering.trans (spawns.trans (.of_moved closed))⟩
  · rw [moves.close_outcome act here rfl, Account.closing, ← outcome]
    cases (act context next).1 with
    | value value => exact Outcome.raising_eq_ending context faults
    | panic panic => rfl
  · rw [Account.closing, ← ledger, Process.ledger, Process.ledger, closed.own, closed.client,
      counted]
  · rw [closed.misuses, misuses, enter.misuses, List.append_nil, List.append_assoc]
    rfl

/-- A body inside a scope of its own. -/
theorem within {opening : Opening} {rest : Handle → Act Notebook Unit}
    {faults : List Misuse} (inner : Thread → Thread → Prop)
    (account : Nat → Bool → Ledger → Account)
    (body : ∀ thread, stage thread →
      Follows id (inner thread) (rest (opening.handle id thread)) (account thread.opened))
    (shown : ∀ thread, stage thread → inner thread (opening.entered id thread))
    (found : ∀ thread left, stage thread → inner thread left →
      (opening.handle id thread).faults left = faults)
    (settled : ∀ thread left, stage thread → inner thread left →
      stage ((opening.handle id thread).closed left)) :
    Follows id stage (opening.start >>= fun handle => (rest handle).ensuring handle.finish)
      fun raises ledger =>
        (account ledger.opened raises (ledger.count opening)).closing raises faults := by
  intro context process here ready
  let thread := process.thread id
  let handle := opening.handle id thread
  obtain ⟨outcome, enter⟩ := opening.start_moves id thread context process here rfl
  have leave : ∀ left : Thread, inner thread left →
      (handle.finish : Act Notebook Unit).Moves id left () faults (handle.closed left) ∧
        stage (handle.closed left) ∧ (handle.closed left).opened = left.opened := by
    intro left inside
    have moves : (handle.finish : Act Notebook Unit).Moves id left () _ _ :=
      handle.finish_moves id left
    rw [found thread left ready.stage inside] at moves
    exact ⟨moves, settled thread left ready.stage inside, handle.opened_closed left⟩
  beta_reduce
  rw [Act.bind_of_value outcome, Process.ledger, ← opening.count_entered id]
  exact bracket (body thread ready.stage) ready.spare enter (shown thread ready.stage) leave
    here here rfl rfl

/-- A body inside a call of a snapshot that is not empty. -/
theorem inside {snapshot : Snapshot} {body : Act Notebook Unit} {inner : Thread → Prop}
    {faults : List Misuse} (occupied : snapshot.isEmpty = false)
    (follows : Follows id inner body account)
    (shown : ∀ thread, stage thread → inner (snapshot.entered thread))
    (found : ∀ thread left, stage thread → inner left → snapshot.faults thread left = faults)
    (settled : ∀ thread left, stage thread → inner left →
      stage (snapshot.closed thread left)) :
    Follows id stage (snapshot.run body) fun raises ledger =>
      (account raises ledger).closing raises faults := by
  intro context process here ready
  let thread := process.thread id
  have filled : snapshot.chain ≠ [] := by simpa [Snapshot.isEmpty] using occupied
  have leave : ∀ left : Thread, inner left →
      (snapshot.leave thread : Act Notebook Unit).Moves id left () faults
          (snapshot.closed thread left) ∧
        stage (snapshot.closed thread left) ∧
          (snapshot.closed thread left).opened = left.opened := by
    intro left inside
    have moves : (snapshot.leave thread : Act Notebook Unit).Moves id left () _ _ :=
      snapshot.leave_moves thread id left
    rw [found thread left ready.stage inside] at moves
    exact ⟨moves, settled thread left ready.stage inside, snapshot.opened_closed thread left⟩
  have enter := Snapshot.inside_moved filled context process
  rw [here] at enter
  let start := snapshot.inside context process
  let placed : Act Notebook Unit := fun _ => body start.1
  have acts : placed context start.2 = body start.1 start.2 := rfl
  have raises : start.1.raises = context.raises := by
    simp only [start, Snapshot.inside]
    split <;> rfl
  have finished := bracket follows ready.spare enter (shown thread ready.stage) leave here
    ((snapshot.inside_thread context process).trans here) raises acts
  rw [Snapshot.opened_entered] at finished
  rw [Snapshot.run_of_occupied filled, here]
  exact finished

/-- What runs on a fresh thread, told alike whether misuses are raised or not. -/
theorem onFreshThread {account : ThreadId → Ledger → Account}
    (follows : ∀ id, Follows id (·.Shows (.bare id)) act fun _ => account id) :
    Follows id stage (Block.onFreshThread act) fun _ ledger =>
      let told := account ledger.notebook.nextThread ⟨ledger.notebook.spawn, 0⟩
      ⟨.value (), ⟨told.ledger.notebook.note (.joined told.outcome), ledger.opened⟩,
        told.found⟩ := by
  intro context process here ready
  let child := process.client.nextThread
  let place : Context := { context with thread := child, unwinding := false }
  have handed : process.spawning.ledger child = ⟨process.client.spawn, 0⟩ := by
    have bare : process.spawning.thread child = .fresh :=
      (ready.spare (process.client.spawned + 1) (Nat.lt_succ_self _)).2
    rw [Process.ledger, bare]
    rfl
  obtain ⟨outcome, ledger, misuses, -, spawns⟩ :=
    follows child place process.spawning rfl ready.spare.spawning
  rw [handed] at outcome ledger misuses
  beta_reduce at outcome ledger misuses
  let left := (act place process.spawning).2
  have tear : Process.Moved child left (Act.tearDown place left).2 [] _ :=
    (Act.tearDown_moves child (left.thread child) place left rfl rfl).2
  obtain ⟨spawns, own⟩ := Process.Spawns.of_spawned ready.spare spawns tear
  have run : Block.onFreshThread act context process =
      Block.note (.joined (Block.entirely act place process.spawning).1) context
        (Block.entirely act place process.spawning).2 := rfl
  have noted : (Act.tearDown place left).2.client =
      (account child ⟨process.client.spawn, 0⟩).ledger.notebook := by
    rw [tear.client]
    exact congrArg Ledger.notebook ledger
  rw [run, Block.entirely_apply, outcome]
  refine ⟨rfl, ?_, ?_, own ▸ ready.stage, spawns.trans (.of_client fun _ => rfl)⟩
  · change (⟨Notebook.note _ (Act.tearDown place left).2.client, _⟩ : Ledger) = _
    rw [noted]
    exact congrArg (Ledger.mk _) (congrArg Thread.opened own)
  · exact (tear.misuses.trans (List.append_nil _)).trans misuses

end Follows

end Ambient
