import Ambient.Proofs.Block
import Ambient.Proofs.Reentry

/-!
# Crews

A crew is a number of threads at work side by side.  Each of them has a plan, the
tasks that it still has before it, and takes them one after the other, while the turns
of the threads may come in any order.  A call is around tasks of its own, so the others
take their turns inside it too.  What one thread hands over any thread may receive, but
not before it is there.

All that a thread does to its slots and to its chain it does in one of a few ways, and
it does the same whatever the others have done.
-/

namespace Ambient

/-! ## What threads have -/

/-- What a thread keeps for itself and hands over to others. -/
inductive Parcel where
  | captor (type : CaptorType) (captor : CaptorId)
  | bridge (bridge : Bridge)
  | snapshot (snapshot : Snapshot)
  | nothing
deriving DecidableEq, Repr

/-- The kind of handle that is made of a captor or of a bridge. -/
inductive Manner where
  | capture
  | crosser
  | crossing
deriving DecidableEq, Repr

variable {Client : Type}

/-- How a handle is opened, unless there is nothing to make it of. -/
def Parcel.opening? : Manner → Parcel → Option Opening
  | .capture, .captor type id => some (.capture type id)
  | .crosser, .captor type id => some (.crosser type id)
  | .crossing, .bridge built => some (.crossing built)
  | _, _ => none

/-- What is not a snapshot is as good as an empty one. -/
def Parcel.toSnapshot : Parcel → Snapshot
  | .snapshot taken => taken
  | _ => .empty

/-- Another holder of the same. -/
def Parcel.clone (parcel : Parcel) : Act Client Unit :=
  Act.hold parcel.toSnapshot.chain

def Parcel.drop (parcel : Parcel) : Act Client Unit :=
  Act.release parcel.toSnapshot.chain

/-- How long a handle lasts. -/
inductive Keeping where
  /-- Until the thread ends it. -/
  | free
  | forgotten
  /-- As long as the tasks that it is around. -/
  | around
deriving DecidableEq, Repr

/-- A scope or a call that has not ended. -/
inductive Frame where
  | handle (handle : Handle) (keeping : Keeping)
  | call (scopes : List Scope) (delegation : Delegation)
deriving DecidableEq, Repr

/-- Whether the thread has the handle in hand. -/
def Frame.isFree : Frame → Bool
  | .handle _ keeping => keeping = .free
  | .call _ _ => false

/-- Whether the frame is around tasks and ends with them. -/
def Frame.isAround : Frame → Bool
  | .handle _ keeping => keeping = .around
  | .call _ _ => true

/-- The bridge of what a scope made by hand has installed. -/
def Frame.bridge? : Frame → Option Bridge
  | .handle (.slot ⟨.capture, type, installed, _⟩) _ => some ⟨type, installed⟩
  | _ => none

def Frame.forgotten : Frame → Frame
  | .handle opened _ => .handle opened .forgotten
  | .call scopes delegation => .call scopes delegation

/-- The end of a call gives back the chain before the slots. -/
def Frame.finish : Frame → Act Client Unit
  | .handle opened _ => opened.finish
  | .call scopes delegation => delegation.finish.ensuring (Scope.finishAll scopes)

def Frame.faults : Frame → Thread → List Misuse
  | .handle opened _, thread => opened.faults thread
  | .call scopes delegation, thread =>
      delegation.faults thread ++
        Scope.faultsAll scopes (thread.setChain delegation.previous)

def Frame.closed : Frame → Thread → Thread
  | .handle opened _, thread => opened.closed thread
  | .call scopes delegation, thread =>
      Scope.closedAll scopes (thread.setChain delegation.previous)

theorem Frame.finish_moves (frame : Frame) (id : ThreadId) (thread : Thread) :
    (frame.finish : Act Client Unit).Moves id thread () (frame.faults thread)
      (frame.closed thread) := by
  cases frame with
  | handle opened keeping => exact opened.finish_moves id thread
  | call scopes delegation =>
      exact (delegation.finish_moves id thread).ensuring (Scope.finishAll_moves scopes id _)

/-- A call is the frame that its start opens, around its body. -/
theorem Snapshot.run_eq_frame {α : Type} {snapshot : Snapshot} {innermost : Crosser}
    {outer : Chain} (reached : snapshot.chain = innermost :: outer) (body : Act Client α) :
    snapshot.run body =
      snapshot.enter innermost >>= fun entered =>
        (Act.holding (entered.1.flatMap Scope.captors) body).ensuring
          (Frame.call entered.1 entered.2).finish := by
  simp only [run_eq_enter reached, Act.ensuring_assoc, Frame.finish]

/-! ## Plans -/

/-- What a thread takes note of. -/
inductive Remark where
  /-- What a handle found in its slot. -/
  | previous (type : CaptorType) (captor : Option CaptorId)
  | current (type : CaptorType) (captor : Option CaptorId)
  | depth (count : Nat)
  | compared (same : Bool)
  | misused (misuse : Misuse)
  | caught (panic : Option Panic)
deriving DecidableEq, Repr

/-- Parcels go by their place among those obtained, frames by their place among those
that have not ended, the latest of them first. -/
inductive Task where
  | make (type : CaptorType) (captor : CaptorId)
  | open (manner : Manner) (place : Nat)
  | within (manner : Manner) (place : Nat) (body : List Task)
  | finish (place : Nat)
  | forget (place : Nat)
  | capture
  | bridge (type : CaptorType)
  | bridgeOf (place : Nat)
  | call (place : Nat) (body : List Task)
  | current (type : CaptorType)
  | depth (place : Nat)
  | compare (first second : Nat)
  | hand (place : Nat)
  | receive (sender : ThreadId) (place : Nat)
  | drop (place : Nat)
  | raise (message : String)
  | attempt (body : List Task)

inductive Item where
  | task (task : Task)
  /-- The end of the tasks that a frame is around. -/
  | close
  /-- The place where a panic is stopped. -/
  | settle

structure Member where
  parcels : List Parcel
  /-- What others may receive, in the order in which it was handed over. -/
  handed : List Parcel
  /-- The scopes and calls that have not ended, latest first. -/
  frames : List Frame
  journal : List Remark
  plan : List Item
  /-- The panic that passes through the thread. -/
  panic : Option Panic

namespace Member

def start (plan : List Task) : Member :=
  ⟨[], [], [], [], plan.map .task, none⟩

def parcel (member : Member) (place : Nat) : Parcel :=
  member.parcels[place]?.getD .nothing

def snapshot (member : Member) (place : Nat) : Snapshot :=
  (member.parcel place).toSnapshot

def gain (member : Member) (parcel : Parcel) : Member :=
  { member with parcels := member.parcels ++ [parcel] }

def note (member : Member) (remark : Remark) : Member :=
  { member with journal := member.journal ++ [remark] }

def push (member : Member) (frame : Frame) : Member :=
  { member with frames := frame :: member.frames }

def pull (member : Member) (place : Nat) : Member :=
  { member with frames := member.frames.eraseIdx place }

def forget (member : Member) (place : Nat) : Member :=
  { member with frames := member.frames.modify place Frame.forgotten }

def first (member : Member) (items : List Item) : Member :=
  { member with plan := items ++ member.plan }

/-- A panic that an act ended with passes on. -/
def fall (member : Member) : Outcome Unit → Member
  | .value _ => member
  | .panic panic => { member with panic := some panic }

/-- The misuses found at a turn are taken note of. -/
def record (member : Member) (found : List Misuse) : Member :=
  { member with journal := member.journal ++ found.map .misused }

/-- A panic goes no further. -/
def settle (member : Member) : Member :=
  { member.note (.caught member.panic) with panic := none }

end Member

/-- What the threads of a process have. -/
abbrev Crew :=
  ThreadId → Member

/-- What the threads have handed over. -/
abbrev Inbox :=
  ThreadId → List Parcel

namespace Member

def opens (member : Member) (keeping : Keeping) (opening : Opening) : Act Crew Member := do
  let handle ← opening.start
  return (member.push (.handle handle keeping)).note
    (.previous opening.type handle.previous)

def calls (member : Member) (snapshot : Snapshot) (innermost : Crosser) :
    Act Crew Member := do
  let (scopes, delegation) ← snapshot.enter innermost
  return member.push (.call scopes delegation)

def ends (member : Member) (place : Nat) (frame : Frame) : Act Crew Member := do
  let outcome ← Act.attempt frame.finish
  return (member.pull place).fall outcome

/-- The frame that the next item of the plan ends. -/
def ending? (member : Member) : Option (Nat × Frame) :=
  match member.plan, member.panic with
  | .task (.finish place) :: _, none =>
      (member.frames[place]?.filter Frame.isFree).map (place, ·)
  | .close :: _, _ => do
      let place ← member.frames.findIdx? Frame.isAround
      return (place, ← member.frames[place]?)
  | _, _ => none

end Member

/-- What a task does that ends nothing.  Nothing is received before it is there. -/
def Task.deed? (inbox : Inbox) (member : Member) : Task → Option (Act Crew Member)
  | .make type captor => some (pure (member.gain (.captor type captor)))
  | .open manner place =>
      match (member.parcel place).opening? manner with
      | none => some (pure member)
      | some opening => some (member.opens .free opening)
  | .within manner place body =>
      match (member.parcel place).opening? manner with
      | none => some (pure (member.first (body.map .task)))
      | some opening => some ((member.first (body.map .task ++ [.close])).opens .around opening)
  | .finish _ => some (pure member)
  | .forget place => some (pure (member.forget place))
  | .capture => some do
      let taken ← Snapshot.capture
      return member.gain (.snapshot taken)
  | .bridge type => some do
      let built ← Bridge.build type
      return member.gain (.bridge built)
  | .bridgeOf place =>
      match member.frames[place]?.bind Frame.bridge? with
      | none => some (pure member)
      | some built => some (pure (member.gain (.bridge built)))
  | .call place body =>
      match (member.snapshot place).chain with
      | [] => some (pure (member.first (body.map .task)))
      | innermost :: _ =>
          some ((member.first (body.map .task ++ [.close])).calls (member.snapshot place)
            innermost)
  | .current type => some do
      let captor ← Act.current type
      return member.note (.current type captor)
  | .depth place => some (pure (member.note (.depth (member.snapshot place).depth)))
  | .compare first second =>
      some (pure (member.note
        (.compared (member.snapshot first = member.snapshot second))))
  | .hand place => some do
      (member.parcel place).clone
      return { member with handed := member.handed ++ [member.parcel place] }
  | .receive sender place =>
      match (inbox sender)[place]? with
      | none => none
      | some parcel => some do
          parcel.clone
          return member.gain parcel
  | .drop place => some do
      (member.parcel place).drop
      return { member with parcels := member.parcels.set place .nothing }
  | .raise message => some (pure (member.fall (.panic (.raised message))))
  | .attempt body => some (pure (member.first (body.map .task ++ [.settle])))

/-- What a thread does next.  Past a panic it only ends what its tasks were around. -/
def Member.deed? (inbox : Inbox) (member : Member) : Option (Act Crew Member) :=
  match member.plan with
  | [] => none
  | item :: plan =>
      let rested := { member with plan := plan }
      match member.ending?, item, member.panic with
      | some (place, frame), _, _ => some (rested.ends place frame)
      | none, .task task, none => task.deed? inbox rested
      | none, .settle, _ => some (pure rested.settle)
      | none, _, _ => some (pure rested)

namespace Process

def inbox (process : Process Crew) : Inbox :=
  fun id => (process.client id).handed

/-- Where a thread takes its turn. -/
def place (process : Process Crew) (build : Build) (id : ThreadId) : Context :=
  ⟨build, id, (process.client id).panic.isSome, []⟩

/-- What a turn leads to: the misuses found go into the journal of its thread. -/
def turned (process : Process Crew) (id : ThreadId)
    (result : Outcome Member × Process Crew) : Process Crew :=
  let found := result.2.misuses.drop process.misuses.length
  match result.1 with
  | .value member =>
      { result.2 with client := Function.update result.2.client id (member.record found) }
  | .panic _ => result.2

/-- A thread takes its turn, unless it is done or waits for something. -/
def turn (build : Build) (id : ThreadId) (process : Process Crew) : Option (Process Crew) :=
  ((process.client id).deed? process.inbox).map fun deed =>
    process.turned id (deed (process.place build id) process)

/-- The threads take their turns in the order given. -/
def turns (build : Build) : List ThreadId → Process Crew → Option (Process Crew)
  | [], process => some process
  | id :: order, process => (process.turn build id).bind (turns build order)

end Process

/-! ## What a turn does -/

/-- How a turn that ends nothing changes the thread and the frames on it. -/
inductive Change (id : ThreadId) (thread : Thread) (frames : List Frame) :
    Thread → List Frame → Prop where
  | still : Change id thread frames thread frames
  | forgotten (place : Nat) :
      Change id thread frames thread (frames.modify place Frame.forgotten)
  | opened (opening : Opening) (keeping : Keeping) :
      Change id thread frames (opening.entered id thread)
        (.handle (opening.handle id thread) keeping :: frames)
  | called {snapshot : Snapshot} (occupied : snapshot.isEmpty = false) :
      Change id thread frames (snapshot.entered thread)
        (.call (snapshot.guards thread) (snapshot.delegation thread) :: frames)

namespace Member

variable {member : Member} {id : ThreadId}

/-- A deed that brings its thread from one state to another without a misuse, keeps
what is handed over, and changes the frames in a way that is allowed. -/
def Proceeds (member : Member) (deed : Act Crew Member) (id : ThreadId) (thread : Thread) :
    Prop :=
  ∃ value after, deed.Moves id thread value [] after ∧
    Change id thread member.frames after value.frames ∧ member.handed <+: value.handed

/-- Nothing but what the member has itself changes. -/
theorem proceeds_pure {value : Member} (frames : value.frames = member.frames)
    (handed : member.handed <+: value.handed) (id : ThreadId) (thread : Thread) :
    member.Proceeds (pure value) id thread :=
  ⟨value, thread, Act.moves_pure value id thread, frames ▸ .still, handed⟩

/-- An act that leaves the thread alone comes before. -/
theorem proceeds_bind {α : Type} {act : Act Crew α} {result : α} {value : α → Member}
    {thread : Thread} (moves : act.Moves id thread result [] thread)
    (frames : (value result).frames = member.frames)
    (handed : member.handed <+: (value result).handed) :
    member.Proceeds (act >>= fun result => pure (value result)) id thread :=
  ⟨_, thread, moves.bind (Act.moves_pure _ id thread), frames ▸ .still, handed⟩

theorem opens_proceeds (member : Member) (items : List Item) (keeping : Keeping)
    (opening : Opening) (id : ThreadId) (thread : Thread) :
    member.Proceeds ((member.first items).opens keeping opening) id thread :=
  ⟨_, _, (opening.start_moves id thread).bind (Act.moves_pure _ id _),
    .opened opening keeping, List.prefix_refl _⟩

theorem calls_proceeds (member : Member) (items : List Item) {snapshot : Snapshot}
    (occupied : snapshot.isEmpty = false) (innermost : Crosser) (id : ThreadId)
    (thread : Thread) :
    member.Proceeds ((member.first items).calls snapshot innermost) id thread :=
  ⟨_, _, (snapshot.enter_moves innermost id thread).bind (Act.moves_pure _ id _),
    .called occupied, List.prefix_refl _⟩

end Member

/-- What a task does that ends nothing. -/
theorem Task.deed_proceeds {task : Task} {inbox : Inbox} {member : Member}
    {deed : Act Crew Member} (does : task.deed? inbox member = some deed) (id : ThreadId)
    (thread : Thread) : member.Proceeds deed id thread := by
  cases task with
  | make type captor =>
      cases does
      exact Member.proceeds_pure rfl (List.prefix_refl _) id thread
  | «open» manner place =>
      simp only [Task.deed?] at does
      split at does <;> cases does
      · exact Member.proceeds_pure rfl (List.prefix_refl _) id thread
      · exact member.opens_proceeds [] .free _ id thread
  | within manner place body =>
      simp only [Task.deed?] at does
      split at does <;> cases does
      · exact Member.proceeds_pure rfl (List.prefix_refl _) id thread
      · exact member.opens_proceeds _ .around _ id thread
  | finish place =>
      cases does
      exact Member.proceeds_pure rfl (List.prefix_refl _) id thread
  | forget place =>
      cases does
      exact ⟨_, thread, Act.moves_pure _ id thread, .forgotten place, List.prefix_refl _⟩
  | capture =>
      cases does
      exact Member.proceeds_bind (Snapshot.capture_moves id thread) rfl (List.prefix_refl _)
  | bridge type =>
      cases does
      exact Member.proceeds_bind (Bridge.build_moves type id thread) rfl (List.prefix_refl _)
  | bridgeOf place =>
      simp only [Task.deed?] at does
      split at does <;> cases does
      · exact Member.proceeds_pure rfl (List.prefix_refl _) id thread
      · exact Member.proceeds_pure rfl (List.prefix_refl _) id thread
  | call place body =>
      simp only [Task.deed?] at does
      split at does <;> rename_i reached <;> cases does
      · exact Member.proceeds_pure rfl (List.prefix_refl _) id thread
      · exact member.calls_proceeds _ (by simp [Snapshot.isEmpty, reached]) _ id thread
  | current type =>
      cases does
      exact Member.proceeds_bind (Act.current_moves id thread type) rfl (List.prefix_refl _)
  | depth place =>
      cases does
      exact Member.proceeds_pure rfl (List.prefix_refl _) id thread
  | compare first second =>
      cases does
      exact Member.proceeds_pure rfl (List.prefix_refl _) id thread
  | hand place =>
      cases does
      exact Member.proceeds_bind (Act.hold_moves id thread _) rfl (List.prefix_append _ _)
  | receive sender place =>
      simp only [Task.deed?] at does
      split at does <;> cases does
      exact Member.proceeds_bind (Act.hold_moves id thread _) rfl (List.prefix_refl _)
  | drop place =>
      cases does
      exact Member.proceeds_bind (Act.release_moves id thread _) rfl (List.prefix_refl _)
  | raise message =>
      cases does
      exact Member.proceeds_pure rfl (List.prefix_refl _) id thread
  | attempt body =>
      cases does
      exact Member.proceeds_pure rfl (List.prefix_refl _) id thread

/-- What a turn does to the thread and to the frames on it. -/
inductive Advance (id : ThreadId) (thread : Thread) (member : Member) :
    Thread → List Frame → Prop where
  | goes {after : Thread} {frames : List Frame} (ending : member.ending? = none)
      (change : Change id thread member.frames after frames) :
      Advance id thread member after frames
  | ends {place : Nat} {frame : Frame} (ending : member.ending? = some (place, frame)) :
      Advance id thread member (frame.closed thread) (member.frames.eraseIdx place)

/-- From one state of its thread a deed always comes to the same. -/
def Act.Yields (deed : Act Crew Member) (context : Context) (before : Thread)
    (value : Member) (found : List Misuse) (after : Thread) : Prop :=
  ∀ process : Process Crew, process.thread context.thread = before →
    (deed context process).1 = .value value ∧
      Process.Moved context.thread process (deed context process).2 found after

theorem Act.Moves.yields {deed : Act Crew Member} {context : Context} {before after : Thread}
    {value : Member} (moves : deed.Moves context.thread before value [] after) :
    deed.Yields context before value [] after :=
  fun process start => moves context process rfl start

namespace Member

variable {member : Member}

/-- A misuse that the end of a frame raises is a panic of the thread from then on. -/
theorem ends_yields (member : Member) (place : Nat) (frame : Frame) (context : Context)
    (thread : Thread) :
    (member.ends place frame).Yields context thread
      ((member.pull place).fall (Outcome.raising context () (frame.faults thread)))
      (frame.faults thread) (frame.closed thread) := by
  intro process start
  have finish : (frame.finish : Act Crew Unit).Moves context.thread thread () _ _ :=
    frame.finish_moves context.thread thread
  obtain ⟨outcome, moved⟩ := finish context process rfl start
  rw [← outcome]
  exact ⟨rfl, moved⟩

theorem frames_fall (member : Member) (outcome : Outcome Unit) :
    (member.fall outcome).frames = member.frames ∧
      (member.fall outcome).handed = member.handed := by
  cases outcome <;> exact ⟨rfl, rfl⟩

theorem frame_of_ending {place : Nat} {frame : Frame}
    (ending : member.ending? = some (place, frame)) : member.frames[place]? = some frame := by
  unfold ending? at ending
  split at ending
  · simp only [Option.map_eq_some_iff, Prod.mk.injEq] at ending
    obtain ⟨found, held, rfl, rfl⟩ := ending
    exact (Option.filter_eq_some_iff.mp held).1
  · simp only [bind, Option.bind_eq_some_iff, pure, Option.some.injEq, Prod.mk.injEq] at ending
    obtain ⟨_, _, _, held, rfl, rfl⟩ := ending
    exact held
  · contradiction

/-- Whatever a thread does next comes to something. -/
theorem deed_yields {inbox : Inbox} {deed : Act Crew Member}
    (does : member.deed? inbox = some deed) (context : Context) (thread : Thread) :
    ∃ value found after, deed.Yields context thread value found after ∧
      Advance context.thread thread member after value.frames ∧
        member.handed <+: value.handed := by
  have going : member.ending? = none → ∀ rested : Member, rested.frames = member.frames →
      rested.handed = member.handed → rested.Proceeds deed context.thread thread →
        ∃ value found after, deed.Yields context thread value found after ∧
          Advance context.thread thread member after value.frames ∧
            member.handed <+: value.handed := by
    rintro ending rested frames handed ⟨value, after, moves, change, grown⟩
    exact ⟨value, [], after, moves.yields, .goes ending (frames ▸ change), handed ▸ grown⟩
  unfold deed? at does
  split at does
  · contradiction
  · rename_i item plan planned
    dsimp only at does
    split at does
    case h_1 place frame ending =>
      cases does
      refine ⟨_, _, _, ends_yields _ place frame context thread, ?_, ?_⟩
      · rw [(frames_fall _ _).1]
        exact .ends ending
      · rw [(frames_fall _ _).2]
        exact List.prefix_refl _
    case h_2 task ending passing =>
      exact going ending { member with plan := plan } rfl rfl
        (Task.deed_proceeds does context.thread thread)
    case h_3 ending =>
      cases does
      exact going ending { member with plan := plan } rfl rfl
        (proceeds_pure rfl (List.prefix_refl _) context.thread thread)
    case h_4 ending _ _ =>
      cases does
      exact going ending { member with plan := plan } rfl rfl
        (proceeds_pure rfl (List.prefix_refl _) context.thread thread)

end Member

namespace Process

variable {build : Build} {id : ThreadId} {process next : Process Crew}

/-- A turn changes nothing but its own thread and what that one has. -/
theorem turned_of_yields {deed : Act Crew Member} {value : Member} {found : List Misuse}
    {after : Thread}
    (yields : deed.Yields (process.place build id) (process.thread id) value found after)
    (turned : process.turned id (deed (process.place build id) process) = next) :
    next.thread id = after ∧
      (∀ other, id ≠ other → next.thread other = process.thread other) ∧
        next.client = Function.update process.client id (value.record found) := by
  subst turned
  obtain ⟨outcome, moved⟩ := yields process rfl
  have recorded :
      (deed (process.place build id) process).2.misuses.drop process.misuses.length = found := by
    rw [moved.misuses, List.drop_left]
  unfold Process.turned
  rw [outcome, recorded]
  exact ⟨moved.own, moved.others, by rw [moved.client]⟩

end Process

end Ambient
