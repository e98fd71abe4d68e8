import Ambient.Proofs.CrewReferences

/-!
# Departures

A thread of a crew may end at any time, whether it is done or not.  It then ends the
scopes and calls that are still open, the latest first and each of them whatever the
others come to, gives up what it keeps and what it has handed over, and loses its slots
and its chain.  Only what it has forgotten it does not end.

A run of a crew is then made of turns and of departures, in any order.
-/

namespace Ambient

open Act (Settles)

/-! ## What a thread does last -/

namespace Parcel

variable {Client : Type} {owns : Client → List Chain} {before lost : List Chain}

def dropAll : List Parcel → Act Client Unit
  | [] => return ()
  | parcel :: rest => do
      parcel.drop
      dropAll rest

theorem dropAll_settles (parcels : List Parcel) :
    Settles owns (dropAll parcels : Act Client Unit) (parcels.flatMap references ++ before)
      (fun _ => before) lost := by
  induction parcels with
  | nil => exact .keep ()
  | cons parcel rest ih =>
      rw [List.flatMap_cons, List.append_assoc]
      exact parcel.drop_settles.bind fun _ => ih

theorem dropAll_moves (parcels : List Parcel) (id : ThreadId) (thread : Thread) :
    (dropAll parcels : Act Client Unit).Moves id thread () [] thread := by
  induction parcels with
  | nil => exact Act.moves_pure () id thread
  | cons parcel rest ih => exact (Act.release_moves id thread _).bind ih

end Parcel

namespace Frame

variable {Client : Type} {owns : Client → List Chain} {before : List Chain}

/-- Whether the thread has let go of the handle without ending it. -/
def isForgotten : Frame → Bool
  | .handle _ keeping => keeping = .forgotten
  | .call _ _ => false

/-- End frames from the first to the last, unwinding after a misuse. -/
def finishAll : List Frame → Act Client Unit
  | [] => return ()
  | frame :: rest => frame.finish.ensuring (finishAll rest)

theorem finishAll_settles (frames : List Frame) :
    Settles owns (finishAll frames : Act Client Unit) (frames.flatMap references ++ before)
      (fun _ => before) before := by
  induction frames with
  | nil => exact .keep ()
  | cons frame rest ih =>
      rw [List.flatMap_cons, List.append_assoc]
      exact frame.finish_settles.ensuring ih

theorem finishAll_moves (frames : List Frame) (id : ThreadId) (thread : Thread) :
    ∃ found after, (finishAll frames : Act Client Unit).Moves id thread () found after := by
  induction frames generalizing thread with
  | nil => exact ⟨[], thread, Act.moves_pure () id thread⟩
  | cons frame rest ih =>
      obtain ⟨found, after, moves⟩ := ih (frame.closed thread)
      exact ⟨_, after, (frame.finish_moves id thread).ensuring moves⟩

end Frame

namespace Member

variable {member : Member}

/-- What a thread does as it ends. -/
def leave (member : Member) : Act Crew Unit :=
  ((Frame.finishAll (member.frames.filter fun frame => !frame.isForgotten)).ensuring
    (Parcel.dropAll (member.parcels ++ member.handed))).ensuring Act.tearDown

/-- What is left of a thread that has ended. -/
def left (member : Member) : Member :=
  { member with
    parcels := []
    handed := []
    frames := member.frames.filter Frame.isForgotten
    plan := [] }

@[simp] theorem left_left (member : Member) : member.left.left = member.left := by
  simp [left]

/-- A thread gives up all but what it has forgotten. -/
theorem leave_settles (member : Member) (rest : List Chain) :
    Settles (fun _ => []) member.leave (member.references ++ rest)
      (fun _ => member.left.references ++ rest) (member.left.references ++ rest) := by
  let kept := member.left.references ++ rest
  let parcels := (member.parcels ++ member.handed).flatMap Parcel.references
  let opened := member.frames.filter fun frame => !frame.isForgotten
  have ends : Settles (fun _ : Crew => []) member.leave
      (opened.flatMap Frame.references ++ (parcels ++ kept)) (fun _ => kept) kept :=
    ((Frame.finishAll_settles opened).ensuring (Parcel.dropAll_settles _)).ensuring .tearDown
  refine ends.perm ?_ (fun _ => .refl _) (.refl _)
  have frames : (member.frames.flatMap Frame.references).Perm
      (opened.flatMap Frame.references ++ member.left.references) := by
    have parts := (List.filter_append_perm Frame.isForgotten member.frames).flatMap_right
      Frame.references
    rw [List.flatMap_append] at parts
    exact parts.symm.trans List.perm_append_comm
  have moved := ((frames.append_left parcels).append_right rest)
  rw [List.append_assoc, List.append_assoc, List.append_assoc] at moved
  rw [references, List.append_assoc]
  exact moved.trans (List.perm_append_comm_assoc _ _ _)

/-- A thread that has ended has neither slots nor a chain. -/
theorem leave_moves (member : Member) (id : ThreadId) (thread : Thread) :
    ∃ found after, member.leave.Moves id thread () found (Thread.tornDown after) := by
  obtain ⟨found, after, moves⟩ :=
    Frame.finishAll_moves (member.frames.filter fun frame => !frame.isForgotten)
      id thread
  exact ⟨_, after, (moves.ensuring (Parcel.dropAll_moves _ id after)).ensuring
    (Act.tearDown_moves id after)⟩

end Member

/-! ## Runs with departures -/

/-- What happens next in a run: a thread takes its turn, or it ends. -/
inductive Crew.Event where
  | turn (id : ThreadId)
  | leave (id : ThreadId)
deriving DecidableEq, Repr

def Crew.Event.thread : Crew.Event → ThreadId
  | .turn id => id
  | .leave id => id

namespace Process

/-- A thread ends, and has no more than what is left then. -/
def leave (build : Build) (id : ThreadId) (process : Process Crew) : Process Crew :=
  let last := ((process.client id).leave (process.place build id) process).2
  { last with client := Function.update last.client id (process.client id).left }

def happen (build : Build) (process : Process Crew) : Crew.Event → Option (Process Crew)
  | .turn id => process.turn build id
  | .leave id => some (process.leave build id)

/-- Turns are taken and threads end in the order given. -/
def events (build : Build) : List Crew.Event → Process Crew → Option (Process Crew)
  | [], process => some process
  | event :: later, process => (process.happen build event).bind (events build later)

/-- The thread has ended. -/
structure Gone (id : ThreadId) (process : Process Crew) : Prop where
  thread : (process.thread id).tornDown = process.thread id
  member : (process.client id).left = process.client id

variable {build : Build} {id other : ThreadId} {process next last : Process Crew}
  {roster : List ThreadId} {event : Crew.Event} {later : List Crew.Event}

/-- A thread that ends leaves nothing behind but what it has forgotten, and the others
stay as they are. -/
theorem leave_moved (build : Build) (id : ThreadId) (process : Process Crew) :
    (∃ after : Thread, (process.leave build id).thread id = after.tornDown) ∧
      (∀ other, id ≠ other → (process.leave build id).thread other = process.thread other) ∧
        (process.leave build id).client =
          Function.update process.client id (process.client id).left := by
  obtain ⟨found, after, moves⟩ := (process.client id).leave_moves id (process.thread id)
  obtain ⟨-, moved⟩ := moves (process.place build id) process rfl rfl
  exact ⟨⟨after, moved.own⟩, moved.others, by rw [leave, moved.client]⟩

theorem leave_gone (build : Build) (id : ThreadId) (process : Process Crew) :
    (process.leave build id).Gone id := by
  obtain ⟨⟨after, own⟩, -, crew⟩ := process.leave_moved build id
  exact ⟨by rw [own]; rfl, by rw [crew, Function.update_self, Member.left_left]⟩

/-- What happens to one thread leaves the others alone. -/
theorem happen_elsewhere (happened : process.happen build event = some next)
    (apart : event.thread ≠ other) : SameOn other next process := by
  cases event with
  | turn id => exact turn_elsewhere happened apart
  | leave id =>
      cases happened
      change id ≠ other at apart
      obtain ⟨-, others, crew⟩ := process.leave_moved build id
      exact ⟨others other apart, by rw [crew, Function.update_of_ne (Ne.symm apart)]⟩

namespace Gone

/-- A thread that has ended takes no more turns, and nothing changes if it ends again. -/
theorem happen (gone : process.Gone id) (happened : process.happen build event = some next) :
    next.Gone id := by
  by_cases own : event.thread = id
  case neg =>
    have same := happen_elsewhere happened own
    exact ⟨by rw [same.thread, gone.thread], by rw [same.member, gone.member]⟩
  case pos =>
    subst own
    cases event with
    | turn id =>
        obtain ⟨deed, does, -⟩ := deed_of_turn happened
        have member : (process.client id).left = process.client id := gone.member
        rw [← member] at does
        cases does
    | leave id =>
        cases happened
        exact process.leave_gone build id

theorem events (gone : process.Gone id) (ran : events build later process = some last) :
    last.Gone id := by
  induction later generalizing process with
  | nil =>
      cases ran
      exact gone
  | cons event later ih =>
      obtain ⟨next, happened, rest⟩ := Option.bind_eq_some_iff.mp ran
      exact ih (gone.happen happened) rest

end Gone

theorem gone_of_leave (ran : events build later process = some last)
    (left : Crew.Event.leave id ∈ later) : last.Gone id := by
  induction later generalizing process with
  | nil => contradiction
  | cons event later ih =>
      obtain ⟨next, happened, rest⟩ := Option.bind_eq_some_iff.mp ran
      rcases List.mem_cons.mp left with rfl | left
      · cases happened
        exact (process.leave_gone build id).events rest
      · exact ih rest left

/-- The threads given are all there are, and the registry counts what they refer to. -/
structure Attended (roster : List ThreadId) (process : Process Crew) : Prop where
  kept : process.Kept roster
  fresh : ∀ id ∉ roster, process.thread id = .fresh

theorem start_attended (roster : List ThreadId) (plans : ThreadId → List Task) :
    (start fun id => Member.start (plans id)).Attended roster :=
  ⟨start_kept roster plans, fun _ _ => rfl⟩

namespace Kept

theorem leave (kept : process.Kept roster) (distinct : roster.Nodup) (listed : id ∈ roster) :
    (process.leave build id).Kept roster := by
  obtain ⟨found, after, moves⟩ := (process.client id).leave_moves id (process.thread id)
  obtain ⟨-, moved⟩ := moves (process.place build id) process rfl rfl
  let rest := Crew.references process.client (roster.erase id)
  have left := (process.client id).leave_settles rest (process.place build id) process []
    (by rw [List.append_nil]; exact kept.given listed)
  refine kept.update distinct listed moved.client ?_
  cases outcome : ((process.client id).leave (process.place build id) process).1 <;>
    rw [outcome, Outcome.owing, List.append_nil] at left <;> exact left

theorem happen (kept : process.Kept roster) (distinct : roster.Nodup)
    (listed : event.thread ∈ roster) (happened : process.happen build event = some next) :
    next.Kept roster := by
  cases event with
  | turn id => exact kept.turn distinct listed happened
  | leave id =>
      cases happened
      exact kept.leave distinct listed

end Kept

theorem Attended.events (attended : process.Attended roster) (distinct : roster.Nodup)
    (listed : ∀ event ∈ later, event.thread ∈ roster)
    (ran : events build later process = some last) : last.Attended roster := by
  induction later generalizing process with
  | nil =>
      cases ran
      exact attended
  | cons event later ih =>
      obtain ⟨next, happened, rest⟩ := Option.bind_eq_some_iff.mp ran
      have here := listed event (.head _)
      have still : next.Attended roster := by
        refine ⟨attended.kept.happen distinct here happened, fun id absent => ?_⟩
        have apart : event.thread ≠ id := fun own => absent (own ▸ here)
        rw [(happen_elsewhere happened apart).thread]
        exact attended.fresh id absent
      exact ih still (fun event member => listed event (.tail _ member)) rest

end Process

end Ambient
