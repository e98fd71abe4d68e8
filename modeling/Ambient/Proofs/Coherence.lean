import Ambient.Proofs.Hops
import Ambient.Proofs.Schedules

/-!
# Slots and chain agree

The scopes of a thread are recorded twice, type by type in the slots and all together on
the chain.  As long as scopes and calls end in reverse order the two agree: the innermost
crosser of a type on the chain has the captor in the slot, unless a scope made by hand
has filled the slot since that crosser came into force.  Without such scopes a snapshot
taken and called at once shows just what is shown without it.
-/

namespace Ambient

/-! ## What frames do to slots and chain -/

/-- Whether the frame fills the slot of a type. -/
def Frame.Fills (type : CaptorType) : Frame → Prop
  | .handle opened _ => opened.scope.type = type
  | .call scopes _ => type ∈ scopes.map (·.type)

/-- Whether the frame is a scope made by hand, and not that of a crosser or of a call. -/
def Frame.byHand : Frame → Bool
  | .handle (.slot _) _ => true
  | _ => false

/-- Whether the frame brings a crosser into force as the innermost of its type. -/
def Frame.Brings (crosser : Crosser) : Frame → Prop
  | .handle (.crosser scope) _ => scope.crosser = crosser
  | .handle (.slot _) _ => False
  | .call _ delegation => delegation.chain.find? (·.type = crosser.type) = some crosser

/-- The latest frame that fills the slot of the crosser's type is a scope made by hand,
and it was opened after a frame that brings the crosser into force. -/
def Overridden (frames : List Frame) (crosser : Crosser) : Prop :=
  ∃ above frame below, frames = above ++ frame :: below ∧
    (∀ later ∈ above, ¬ later.Fills crosser.type) ∧
      frame.Fills crosser.type ∧ frame.byHand ∧ ∃ earlier ∈ below, earlier.Brings crosser

theorem Overridden.cons {frames : List Frame} {crosser : Crosser} {latest : Frame}
    (overridden : Overridden frames crosser) (other : ¬ latest.Fills crosser.type) :
    Overridden (latest :: frames) crosser := by
  rcases overridden with ⟨above, frame, below, rfl, later, rest⟩
  refine ⟨latest :: above, frame, below, rfl, ?_, rest⟩
  rintro frame' member
  rcases List.mem_cons.mp member with rfl | member
  · exact other
  · exact later frame' member

/-- The captor of a type is that of the innermost crosser. -/
theorem Chain.captor?_eq_find? (type : CaptorType) (chain : Chain) :
    captor? type chain = (chain.find? (·.type = type)).map (·.captor) := by
  induction chain with
  | nil => rfl
  | cons crosser outer ih =>
      by_cases same : crosser.type = type
      · simp [captor?, same]
      · simp [captor?, same, ih]

/-- The frames of a thread lead from a scene with no crosser to the scene inside them. -/
inductive Stacks (id : ThreadId) : List Frame → Scene → Prop where
  | bare {scene : Scene} (here : scene.thread = id) (root : scene.chain = []) :
      Stacks id [] scene
  | opened {frames : List Frame} {scene : Scene} {thread : Thread}
      (outer : Stacks id frames scene) (shows : thread.Shows scene) (opening : Opening)
      (keeping : Keeping) :
      Stacks id (.handle (opening.handle id thread) keeping :: frames)
        (scene.within thread.opened opening)
  | called {frames : List Frame} {scene : Scene} {thread : Thread} {snapshot : Snapshot}
      (outer : Stacks id frames scene) (shows : thread.Shows scene)
      (occupied : snapshot.isEmpty = false) :
      Stacks id (.call (snapshot.guards thread) (snapshot.delegation thread) :: frames)
        (scene.inside snapshot)

namespace Stacks

variable {id : ThreadId} {frames : List Frame} {scene : Scene} {thread : Thread}

theorem here (standing : Stacks id frames scene) : scene.thread = id := by
  induction standing with
  | bare here root => exact here
  | opened outer shows opening keeping ih => rw [Scene.thread_within, ih]
  | called outer shows occupied ih => rw [Scene.thread_inside, ih]

theorem forgotten (standing : Stacks id frames scene) (place : Nat) :
    Stacks id (frames.modify place Frame.forgotten) scene := by
  induction standing generalizing place with
  | bare here root =>
      simpa using .bare here root
  | opened outer shows opening keeping ih =>
      cases place with
      | zero => exact .opened outer shows opening .forgotten
      | succ place => exact .opened (ih place) shows opening keeping
  | called outer shows occupied ih =>
      cases place with
      | zero => exact .called outer shows occupied
      | succ place => exact .called (ih place) shows occupied

/-- The end of the latest frame brings back the scene around it. -/
theorem ended {frame : Frame} (standing : Stacks id (frame :: frames) scene)
    (shows : thread.Shows scene) :
    ∃ outer, Stacks id frames outer ∧ (frame.closed thread).Shows outer := by
  generalize stacked : frame :: frames = all at standing
  cases standing with
  | bare here root => contradiction
  | @opened frames' scene' before outer shown opening keeping =>
      cases stacked
      rw [← outer.here]
      exact ⟨scene', outer.here ▸ outer, opening.shows_closed shown shows⟩
  | @called frames' scene' before snapshot outer shown occupied =>
      cases stacked
      exact ⟨scene', outer, Snapshot.shows_closed occupied shown shows⟩

/-- Every crosser that is the innermost of its type was brought into force. -/
theorem brought (standing : Stacks id frames scene) {crosser : Crosser}
    (innermost : scene.chain.find? (·.type = crosser.type) = some crosser) :
    ∃ frame ∈ frames, frame.Brings crosser := by
  induction standing with
  | bare here root => simp [root] at innermost
  | @opened frames scene thread outer shows opening keeping ih =>
      cases opening with
      | capture type captor =>
          obtain ⟨frame, member, brings⟩ := ih innermost
          exact ⟨frame, List.mem_cons_of_mem _ member, brings⟩
      | crossing bridge =>
          obtain ⟨frame, member, brings⟩ := ih innermost
          exact ⟨frame, List.mem_cons_of_mem _ member, brings⟩
      | crosser type captor =>
          simp only [Scene.within, List.find?_cons] at innermost
          split at innermost
          · rename_i same
            refine ⟨_, List.mem_cons_self, ?_⟩
            rw [← Option.some.inj innermost, outer.here]
            rfl
          · obtain ⟨frame, member, brings⟩ := ih innermost
            exact ⟨frame, List.mem_cons_of_mem _ member, brings⟩
  | called outer shows occupied ih =>
      refine ⟨_, List.mem_cons_self, ?_⟩
      simpa [Scene.inside, occupied, Frame.Brings, Snapshot.delegation] using innermost

/-- The innermost crosser of a type has the captor in the slot, unless it is
overridden.  The induction is on the frames: a frame of another type leaves both as they
are, and one of the type fills the slot itself. -/
theorem coherent (standing : Stacks id frames scene) {crosser : Crosser}
    (innermost : scene.chain.find? (·.type = crosser.type) = some crosser) :
    scene.environment crosser.type = some crosser.captor ∨ Overridden frames crosser := by
  induction standing with
  | bare here root => simp [root] at innermost
  | @opened frames scene thread outer shows opening keeping ih =>
      have fills : (Frame.handle (opening.handle id thread) keeping).Fills crosser.type ↔
          opening.type = crosser.type := by
        cases opening <;> rfl
      rw [Scene.environment_within]
      by_cases same : opening.type = crosser.type
      case pos =>
        rw [if_pos same]
        cases opening with
        | capture type captor =>
            right
            exact ⟨[], _, frames, rfl, by simp, fills.mpr same, rfl,
              outer.brought innermost⟩
        | crossing bridge =>
            right
            exact ⟨[], _, frames, rfl, by simp, fills.mpr same, rfl,
              outer.brought innermost⟩
        | crosser type captor =>
            left
            have first : decide (type = crosser.type) = true := decide_eq_true same
            simp only [Scene.within, List.find?_cons, first] at innermost
            rw [← Option.some.inj innermost]
            rfl
      case neg =>
        rw [if_neg same]
        have around : scene.chain.find? (·.type = crosser.type) = some crosser := by
          cases opening with
          | capture type captor => exact innermost
          | crossing bridge => exact innermost
          | crosser type captor =>
              have apart : decide (type = crosser.type) = false := decide_eq_false same
              simpa only [Scene.within, List.find?_cons, apart] using innermost
        rcases ih around with coherent | overridden
        · exact .inl coherent
        · exact .inr (overridden.cons (mt fills.mp same))
  | @called frames scene thread snapshot outer shows occupied ih =>
      left
      have chain : (scene.inside snapshot).chain = snapshot.chain := by
        simp [Scene.inside, occupied]
      rw [chain] at innermost
      have captor : Chain.captor? crosser.type snapshot.chain = some crosser.captor := by
        rw [Chain.captor?_eq_find?, innermost]
        rfl
      rw [Snapshot.environment_inside occupied, if_pos, captor]
      rw [Snapshot.mem_types_iff, captor]
      simp

end Stacks

/-! ## Runs in which frames end in reverse order -/

/-- The next item of the plan ends no frame but the latest. -/
def Member.inOrder (member : Member) : Bool :=
  member.ending?.all (·.1 = 0)

namespace Process

/-- Whether the turns of one thread end its frames in reverse order, whatever the turns
of others between them do. -/
def orderly (build : Build) (id : ThreadId) : List ThreadId → Process Crew → Bool
  | [], _ => true
  | first :: order, process =>
      (first ≠ id || (process.client id).inOrder) &&
        (process.turn build first).all (orderly build id order)

/-- The thread shows the scene inside its frames. -/
def Coheres (process : Process Crew) (id : ThreadId) : Prop :=
  ∃ scene, Stacks id (process.client id).frames scene ∧ (process.thread id).Shows scene

variable {build : Build} {id : ThreadId} {start process next : Process Crew}

theorem Coheres.turn (coheres : process.Coheres id)
    (inOrder : (process.client id).inOrder = true)
    (turned : process.turn build id = some next) : next.Coheres id := by
  obtain ⟨scene, standing, shows⟩ := coheres
  obtain ⟨deed, does, reached⟩ := deed_of_turn turned
  obtain ⟨value, found, after, yields, advance, -⟩ :=
    Member.deed_yields does (process.place build id) (process.thread id)
  obtain ⟨own, -, crew⟩ := turned_of_yields yields reached
  have frames : (next.client id).frames = value.frames := by
    rw [crew, Function.update_self]
    rfl
  rw [Coheres, own, frames]
  clear own frames yields
  have here : scene.thread = (process.place build id).thread := standing.here
  generalize value.frames = frames at advance
  cases advance with
  | goes ending change =>
      cases change with
      | still => exact ⟨scene, standing, shows⟩
      | forgotten place => exact ⟨scene, standing.forgotten place, shows⟩
      | opened opening keeping =>
          refine ⟨_, .opened standing shows opening keeping, ?_⟩
          rw [← here]
          exact opening.shows_entered shows
      | called occupied =>
          exact ⟨_, .called standing shows occupied, Snapshot.shows_entered occupied shows⟩
  | @ends place frame ending =>
      have found := Member.frame_of_ending ending
      have latest : place = 0 := by simpa [Member.inOrder, ending] using inOrder
      subst latest
      cases listed : (process.client id).frames with
      | nil => simp [listed] at found
      | cons latest rest =>
          rw [listed] at found standing
          cases found
          exact standing.ended shows

theorem Coheres.turns {order : List ThreadId} (coheres : start.Coheres id)
    (inOrder : orderly build id order start = true)
    (ran : turns build order start = some process) : process.Coheres id := by
  induction order generalizing start with
  | nil =>
      cases ran
      exact coheres
  | cons first order ih =>
      obtain ⟨next, turned, rest⟩ := Option.bind_eq_some_iff.mp ran
      simp only [orderly, turned, Option.all_some, Bool.and_eq_true, Bool.or_eq_true,
        decide_eq_true_eq] at inOrder
      obtain ⟨now, later⟩ := inOrder
      apply ih _ later rest
      by_cases own : first = id
      case pos =>
        subst own
        exact coheres.turn (now.resolve_left fun apart => apart rfl) turned
      case neg =>
        have same := turn_elsewhere turned own
        rwa [Coheres, same.thread, same.member]

end Process

/-! ## Calls of what is captured on the spot -/

namespace Snapshot

variable {α : Type} {context : Context} {process : Process Crew}

/-- The thread on which the body of a call starts. -/
def shown (snapshot : Snapshot) (context : Context) (process : Process Crew) : Thread :=
  (snapshot.inside context process).2.thread context.thread

/-- Inside the call of its own chain a thread on which slots and chain agree shows the
same. -/
theorem shown_alike (live : (process.thread context.thread).live)
    (agree : ∀ crosser, (process.thread context.thread).chain.find? (·.type = crosser.type) =
      some crosser → (process.thread context.thread).current crosser.type = some crosser.captor) :
    let thread := process.thread context.thread
    let inside := shown ⟨thread.chain⟩ context process
    inside.chain = thread.chain ∧ ∀ type, inside.current type = thread.current type := by
  intro thread inside
  by_cases empty : thread.chain = []
  case pos =>
    have still : Snapshot.inside ⟨thread.chain⟩ context process = (context, process) :=
      inside_of_empty empty context process
    have same : inside = thread := congrArg (fun place => place.2.thread context.thread) still
    rw [same]
    exact ⟨rfl, fun _ => rfl⟩
  case neg =>
    have entered : inside = entered ⟨thread.chain⟩ thread :=
      (inside_moved empty context process).own
    rw [entered]
    refine ⟨by rw [chain_entered, if_pos live], fun type => ?_⟩
    rw [current_entered]
    split
    case isTrue present =>
      rw [Chain.captor?_eq_find?]
      obtain ⟨crosser, innermost⟩ :
          ∃ crosser, thread.chain.find? (·.type = type) = some crosser := by
        have found := (mem_types_iff _ type).mp present.2
        rw [Chain.captor?_eq_find?, ne_eq, Option.map_eq_none_iff] at found
        exact Option.ne_none_iff_exists'.mp found
      have same : crosser.type = type := by simpa using List.find?_some innermost
      subst same
      rw [innermost, agree crosser innermost]
      rfl
    case isFalse => rfl

/-- A body that only looks at its thread yields what it sees inside the call. -/
theorem run_looking {snapshot : Snapshot} {body : Act Crew α} {look : Thread → α}
    (live : (process.thread context.thread).live)
    (looks : ∀ thread, body.Moves context.thread thread (look thread) [] thread) :
    (snapshot.run body context process).1 = .value (look (snapshot.shown context process)) := by
  cases occupied : snapshot.isEmpty with
  | true =>
      have empty : snapshot.chain = [] := by simpa [isEmpty] using occupied
      rw [run_of_empty empty, shown, inside_of_empty empty]
      exact (looks _ context process rfl rfl).1
  | false =>
      have filled : snapshot.chain ≠ [] := by simpa [isEmpty] using occupied
      have entered : snapshot.shown context process =
          snapshot.entered (process.thread context.thread) :=
        (inside_moved filled context process).own
      let scene : Scene := ⟨context.thread, (process.thread context.thread).current,
        (process.thread context.thread).chain, []⟩
      have shows : (process.thread context.thread).Shows scene := ⟨live, fun _ => rfl, rfl⟩
      rw [entered]
      exact run_value occupied (looks _) (shows_entered occupied shows)

end Snapshot

namespace Process

variable {build : Build} {id : ThreadId} {start process : Process Crew}
  {order : List ThreadId}

/-- At every point of a run in which the scopes and calls of a thread end in reverse
order, the innermost crosser of a type on its chain has the captor in the slot, or the
latest frame of the type was made by hand after that crosser came into force.  Where no
scope made by hand is open, a call of what is captured there is transparent: its body
starts with the same chain and the same captors, and reads and captures the same. -/
theorem slots_cohere (ran : turns build order start = some process)
    (inOrder : orderly build id order start = true) (live : (start.thread id).live)
    (unframed : (start.client id).frames = []) (root : (start.thread id).chain = []) :
    let thread := process.thread id
    let frames := (process.client id).frames
    (∀ crosser, thread.chain.find? (·.type = crosser.type) = some crosser →
      thread.current crosser.type = some crosser.captor ∨ Overridden frames crosser) ∧
      ((∀ frame ∈ frames, frame.byHand = false) → ∀ context : Context, context.thread = id →
        let captured := Snapshot.capture context process
        let inside := Snapshot.shown ⟨thread.chain⟩ context captured.2
        captured.1 = .value ⟨thread.chain⟩ ∧
          inside.chain = thread.chain ∧ (∀ type, inside.current type = thread.current type) ∧
          (∀ type, (Snapshot.run ⟨thread.chain⟩ (Act.current type) context captured.2).1 =
            (Act.current type context process).1) ∧
          (Snapshot.run ⟨thread.chain⟩ Snapshot.capture context captured.2).1 = captured.1) := by
  intro thread frames
  have begun : start.Coheres id := by
    refine ⟨⟨id, (start.thread id).current, (start.thread id).chain, []⟩, ?_, live,
      fun _ => rfl, rfl⟩
    rw [unframed]
    exact .bare rfl root
  obtain ⟨scene, standing, shows⟩ := begun.turns inOrder ran
  have coherent : ∀ crosser, thread.chain.find? (·.type = crosser.type) = some crosser →
      thread.current crosser.type = some crosser.captor ∨ Overridden frames crosser := by
    intro crosser innermost
    rw [shows.chain] at innermost
    rw [shows.current]
    exact standing.coherent innermost
  refine ⟨coherent, ?_⟩
  rintro plain context here captured inside
  subst here
  obtain ⟨outcome, moved⟩ :=
    Snapshot.capture_moves context.thread thread context process rfl rfl
  have own : captured.2.thread context.thread = thread := moved.own
  have alive : (captured.2.thread context.thread).live := by rw [own]; exact shows.live
  have alike : inside.chain = thread.chain ∧
      ∀ type, inside.current type = thread.current type := by
    have agree := Snapshot.shown_alike alive
    rw [own] at agree
    apply agree
    intro crosser innermost
    rcases coherent crosser innermost with agree | ⟨above, frame, below, listed, -, -, made, -⟩
    · exact agree
    · simp [plain frame (by simp [frames, listed])] at made
  refine ⟨outcome, alike.1, alike.2, fun type => ?_, ?_⟩
  · rw [Snapshot.run_looking alive fun thread => Act.current_moves context.thread thread type]
    exact congrArg Outcome.value (alike.2 type)
  · rw [Snapshot.run_looking alive fun thread => Snapshot.capture_moves context.thread thread]
    refine Eq.trans ?_ outcome.symm
    exact congrArg (fun chain => Outcome.value (Snapshot.mk chain)) alike.1

/-- A snapshot from another thread is called, and inside the call a crosser is opened
and ended around one more call. -/
theorem slots_cohere_inside_call :
    let log : CaptorType := ⟨"Log"⟩
    let worker : ThreadId := .worker "worker"
    let start : Process Crew := .start fun id =>
      if id = .main then
        .start [.make log "own", .receive worker 0, .call 1 [.within .crosser 0 [.current log]]]
      else
        .start [.make log "log", .open .crosser 0, .capture, .hand 1, .finish 0]
    let order := List.replicate 4 worker ++ List.replicate 3 .main ++ [worker, .main]
    let context : Context := ⟨.debug, .main, false, []⟩
    ∃ process, turns .debug order start = some process ∧
      (process.thread .main).chain.map (·.captor) = ["own", "log"] ∧
      (Snapshot.run ⟨(process.thread .main).chain⟩ (Act.current log) context
        (Snapshot.capture context process).2).1 = .value (some "own") := by
  intro log worker start order context
  obtain ⟨process, ran⟩ := Option.isSome_iff_exists.mp
    (show (turns .debug order start).isSome by decide +kernel)
  have seen : (turns .debug order start).map (fun last =>
      ((last.thread .main).chain.map (·.captor), (last.thread .main).current log,
        (last.client .main).frames.any Frame.byHand)) =
        some (["own", "log"], some "own", false) := by decide +kernel
  simp only [ran, Option.map_some, Option.some.injEq, Prod.mk.injEq] at seen
  obtain ⟨chain, current, plain⟩ := seen
  obtain ⟨-, transparent⟩ :=
    slots_cohere ran (show orderly .debug .main order start = true by decide +kernel) rfl rfl rfl
  obtain ⟨-, -, -, reads, -⟩ :=
    transparent (by simpa using plain) context rfl
  refine ⟨process, ran, chain, ?_⟩
  rw [reads log]
  exact congrArg Outcome.value current

end Process

end Ambient
