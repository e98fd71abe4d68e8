import Ambient.Proofs.Scenes
import Mathlib.Algebra.GroupWithZero.Nat

/-!
# Snapshots that travel

A snapshot that is called elsewhere puts its chain in the place of the chain it
meets there.  Crossers opened inside the call go in front of that chain, and the
next snapshot takes them all along.  However often this is done, what arrives is
the chain of the beginning with the crossers opened on the way in front of it,
and nothing that the threads on the way had open of their own.
-/

namespace Ambient

variable {Client α : Type}

/-! ## Handles around a body -/

/-- What an act refers to makes no difference to where it leads. -/
theorem Act.Moves.holding {act : Act Client α} {id : ThreadId} {before after : Thread}
    {value : α} {found : List Misuse} (moves : act.Moves id before value found after)
    (captors : List CaptorId) : (act.holding captors).Moves id before value found after :=
  fun context process here start =>
    moves { context with held := captors ++ context.held } process here start

namespace Opening

/-- Run a body inside some handles, of which the first is opened first. -/
def around : List Opening → Act Client α → Act Client α
  | [], body => body
  | opening :: rest, body => do
      let handle ← opening.start
      ((around rest body).holding handle.captors).ensuring handle.finish

/-- The thread inside all of the handles. -/
def enteredAll (id : ThreadId) : List Opening → Thread → Thread
  | [], thread => thread
  | opening :: rest, thread => enteredAll id rest (opening.entered id thread)

/-- A body that keeps its thread is all that happens inside the handles, and the
thread shows the same scene afterwards. -/
theorem around_moves {body : Act Client α} {value : α} (openings : List Opening)
    {scene : Scene} {id : ThreadId} (here : scene.thread = id) {thread : Thread}
    (shows : thread.Shows scene)
    (kept : body.Moves id (enteredAll id openings thread) value []
      (enteredAll id openings thread)) :
    ∃ left : Thread, left.Shows scene ∧
      (around openings body).Moves id thread value [] left := by
  subst here
  induction openings generalizing scene thread with
  | nil => exact ⟨thread, shows, kept⟩
  | cons opening rest ih =>
      have same := scene.thread_within thread.opened opening
      have within := opening.shows_entered shows
      obtain ⟨left, inside, moves⟩ := ih within (same.symm ▸ kept)
      rw [same] at moves
      let handle := opening.handle scene.thread thread
      have finish : (handle.finish : Act Client Unit).Moves scene.thread left () _ _ :=
        handle.finish_moves scene.thread left
      rw [opening.silent shows inside] at finish
      refine ⟨handle.closed left, opening.shows_closed shows inside, ?_⟩
      exact (opening.start_moves scene.thread thread).bind
        ((moves.holding handle.captors).ensuring finish)

/-- The crosser that a handle stands for: its type and its captor. -/
def crossing? : Opening → Option (CaptorType × CaptorId)
  | .crosser type captor => some (type, captor)
  | _ => none

/-- The crossers among some handles, in the order in which they are opened. -/
def crossings (openings : List Opening) : List (CaptorType × CaptorId) :=
  openings.filterMap crossing?

end Opening

namespace Chain

/-- The types and captors of the crossers on a chain, outermost first. -/
def outline (chain : Chain) : List (CaptorType × CaptorId) :=
  chain.reverse.map fun crosser => (crosser.type, crosser.captor)

@[simp] theorem outline_cons (crosser : Crosser) (outer : Chain) :
    outline (crosser :: outer) = outline outer ++ [(crosser.type, crosser.captor)] := by
  simp [outline]

theorem length_outline (chain : Chain) : (outline chain).length = depth chain := by
  simp [outline, depth]

/-- A chain that goes on from an occupied one is occupied. -/
theorem isEmpty_of_outline {first last : Chain} {entries : List (CaptorType × CaptorId)}
    (outlined : outline last = outline first ++ entries) (occupied : first.isEmpty = false) :
    last.isEmpty = false := by
  cases last with
  | cons crosser outer => rfl
  | nil =>
      have none : outline first = [] := (List.append_eq_nil_iff.mp outlined.symm).1
      simp_all [outline]

end Chain

/-- The captor of the last entry for a type. -/
def lastOf (type : CaptorType) (entries : List (CaptorType × CaptorId)) : Option CaptorId :=
  (entries.reverse.find? fun entry => entry.1 = type).map (·.2)

/-- The innermost captor of a type is the last one in the outline. -/
theorem Chain.captor?_eq_lastOf (type : CaptorType) (chain : Chain) :
    captor? type chain = lastOf type (outline chain) := by
  induction chain with
  | nil => rfl
  | cons crosser outer ih =>
      by_cases same : crosser.type = type
      · simp [captor?, lastOf, same]
      · simp [captor?, lastOf, same, ih]

theorem Opening.outline_entered (opening : Opening) (id : ThreadId) {thread : Thread}
    (live : thread.live) :
    Chain.outline (opening.entered id thread).chain =
      Chain.outline thread.chain ++ opening.crossing?.toList := by
  cases opening with
  | capture type captor => simp [entered, crossing?]
  | crossing bridge => simp [entered, crossing?]
  | crosser type captor =>
      simp [entered, CrosserScope.entered, CrosserScope.node, CrosserScope.ofThread, crossing?,
        live]

/-- Handles add their crossers to the chain and leave the rest of it alone. -/
theorem Opening.outline_enteredAll (openings : List Opening) (id : ThreadId)
    {thread : Thread} (live : thread.live) :
    Chain.outline (enteredAll id openings thread).chain =
      Chain.outline thread.chain ++ crossings openings := by
  induction openings generalizing thread with
  | nil => simp [enteredAll, crossings]
  | cons opening rest ih =>
      have alive : (opening.entered id thread).live := (opening.live_entered id thread).trans live
      rw [enteredAll, ih alive, opening.outline_entered id live, List.append_assoc]
      cases found : opening.crossing? <;> simp [crossings, found]

/-! ## Hops -/

/-- What the body of a call finds when it starts. -/
structure Sight where
  snapshot : Snapshot
  current : CaptorType → Option CaptorId

/-- A hop is a call of a snapshot somewhere, with handles opened inside the call
and another snapshot taken inside the handles.  The process is the one just
before the call, whatever has happened since the snapshot was taken. -/
structure Hop (Client : Type) where
  context : Context
  process : Process Client
  openings : List Opening

namespace Hop

/-- The thread of the hop as it is before the call. -/
def thread (hop : Hop Client) : Thread :=
  hop.process.thread hop.context.thread

/-- What the body of the call does. -/
def body (hop : Hop Client) : Act Client (Sight × Snapshot) := do
  let snapshot ← Snapshot.capture
  let thread ← Act.thread
  let taken ← Opening.around hop.openings Snapshot.capture
  return (⟨snapshot, thread.current⟩, taken)

/-- What a hop of a snapshot comes to: what its body finds, and the snapshot
taken there. -/
def run (hop : Hop Client) (snapshot : Snapshot) : Outcome (Sight × Snapshot) :=
  (snapshot.run hop.body hop.context hop.process).1

/-- The snapshot that arrives after some hops, each of the one taken before. -/
def travel : List (Hop Client) → Outcome Snapshot → Outcome Snapshot
  | hop :: rest, .value snapshot =>
      match hop.run snapshot with
      | .value (_, taken) => travel rest (.value taken)
      | .panic panic => .panic panic
  | _, outcome => outcome

/-- A crosser that the thread of the hop has not opened before the call. -/
def Opens (hop : Hop Client) (crosser : Crosser) : Prop :=
  crosser.id.thread = hop.context.thread ∧ hop.thread.opened ≤ crosser.id.index

end Hop

/-- The crossers that handles add to the chain are new ones of the thread. -/
theorem Opening.mem_enteredAll (openings : List Opening) (id : ThreadId) (thread : Thread)
    {crosser : Crosser} (member : crosser ∈ (enteredAll id openings thread).chain) :
    crosser ∈ thread.chain ∨
      crosser.id.thread = id ∧ thread.opened ≤ crosser.id.index := by
  induction openings generalizing thread with
  | nil => exact .inl member
  | cons opening rest ih =>
      rcases ih (opening.entered id thread) member with inside | ⟨own, bound⟩
      · cases opening with
        | capture type captor => exact .inl (by simpa [entered] using inside)
        | crossing bridge => exact .inl (by simpa [entered] using inside)
        | crosser type captor =>
            cases live : thread.live with
            | false => simp [entered, CrosserScope.entered, live] at inside
            | true =>
                simp only [entered, CrosserScope.entered, Thread.chain_setCurrent,
                  Thread.chain_setChain, live, if_true, CrosserScope.node, List.mem_cons] at inside
                rcases inside with rfl | outside
                · exact .inr ⟨rfl, Nat.le_refl _⟩
                · exact .inl outside
      · exact .inr ⟨own, Nat.le_trans (opening.opened_le_entered id thread) bound⟩

namespace Snapshot

variable {snapshot : Snapshot}

/-- Inside a call the captors of the snapshot come before those of the thread. -/
theorem current_entered_eq_or (snapshot : Snapshot) {thread : Thread} (live : thread.live)
    (type : CaptorType) :
    (snapshot.entered thread).current type =
      (Chain.captor? type snapshot.chain).or (thread.current type) := by
  cases found : Chain.captor? type snapshot.chain <;>
    simp [current_entered, mem_types_iff, found, live]

/-- A call of a body whose effect on the thread is known. -/
theorem run_moves (occupied : snapshot.chain ≠ []) {body : Act Client α} {id : ThreadId}
    {thread left : Thread} {value : α} {found : List Misuse}
    (moves : body.Moves id (snapshot.entered thread) value found left) :
    (snapshot.run body).Moves id thread value (found ++ snapshot.faults thread left)
      (snapshot.closed thread left) := by
  cases reached : snapshot.chain with
  | nil => contradiction
  | cons innermost outer =>
      have ends := ((moves.holding ((snapshot.guards thread).flatMap Scope.captors)).ensuring
        (Delegation.finish_moves (snapshot.delegation thread) id left)).ensuring
          (Scope.finishAll_moves (snapshot.guards thread) id _)
      rw [List.append_assoc] at ends
      rw [run_eq_enter reached]
      exact (snapshot.enter_moves innermost id thread).bind ends

/-- A call whose body keeps the scene inside ends with the body's value. -/
theorem run_value (occupied : snapshot.isEmpty = false) {scene : Scene} {left : Thread}
    {body : Act Client α} {value : α} {context : Context} {process : Process Client}
    (moves : body.Moves context.thread (snapshot.entered (process.thread context.thread))
      value [] left) (inside : left.Shows (scene.inside snapshot)) :
    (snapshot.run body context process).1 = .value value := by
  have filled : snapshot.chain ≠ [] := by simpa [isEmpty] using occupied
  rw [(run_moves filled moves context process rfl rfl).1, snapshot.silent occupied inside]
  rfl

end Snapshot

namespace Hop

variable {hop : Hop Client} {snapshot : Snapshot}

/-- The thread inside the handles of a hop. -/
def reached (hop : Hop Client) (snapshot : Snapshot) : Thread :=
  Opening.enteredAll hop.context.thread hop.openings (snapshot.entered hop.thread)

theorem run_eq (live : hop.thread.live) (occupied : snapshot.isEmpty = false) :
    hop.run snapshot =
      .value (⟨snapshot, (snapshot.entered hop.thread).current⟩,
        ⟨(hop.reached snapshot).chain⟩) := by
  let id := hop.context.thread
  let scene : Scene := ⟨id, hop.thread.current, hop.thread.chain, []⟩
  have shows : hop.thread.Shows scene := ⟨live, fun _ => rfl, rfl⟩
  have entered := snapshot.shows_entered occupied shows
  have taking : (Snapshot.capture : Act Client Snapshot).Moves id (hop.reached snapshot)
      ⟨(hop.reached snapshot).chain⟩ [] (hop.reached snapshot) :=
    Snapshot.capture_moves id _
  obtain ⟨left, inside, taken⟩ :=
    Opening.around_moves hop.openings (scene.thread_inside snapshot) entered taking
  have arrived : (snapshot.entered hop.thread).chain = snapshot.chain := by
    rw [Snapshot.chain_entered, if_pos live]
  have looking : (Snapshot.capture : Act Client Snapshot).Moves id (snapshot.entered hop.thread)
      snapshot [] (snapshot.entered hop.thread) := by
    simpa [arrived] using Snapshot.capture_moves id (snapshot.entered hop.thread)
  exact Snapshot.run_value occupied (looking.bind ((Act.thread_moves id _).bind
    (taken.bind (Act.moves_pure _ id left)))) inside

theorem outline_reached (live : hop.thread.live) (snapshot : Snapshot) :
    Chain.outline (hop.reached snapshot).chain =
      Chain.outline snapshot.chain ++ Opening.crossings hop.openings := by
  have alive : (snapshot.entered hop.thread).live := (snapshot.live_entered hop.thread).trans live
  rw [reached, Opening.outline_enteredAll _ _ alive, Snapshot.chain_entered, if_pos live]

theorem mem_reached (live : hop.thread.live) {crosser : Crosser}
    (member : crosser ∈ (hop.reached snapshot).chain) :
    crosser ∈ snapshot.chain ∨ hop.Opens crosser := by
  have origin := Opening.mem_enteredAll hop.openings hop.context.thread _ member
  rwa [Snapshot.chain_entered, if_pos live, Snapshot.opened_entered] at origin

/-- What arrives after some hops. -/
theorem travel_value {hops : List (Hop Client)} (live : ∀ hop ∈ hops, hop.thread.live)
    (occupied : snapshot.isEmpty = false) :
    ∃ last : Snapshot, travel hops (.value snapshot) = .value last ∧
      Chain.outline last.chain = Chain.outline snapshot.chain ++
        hops.flatMap (fun hop => Opening.crossings hop.openings) ∧
      ∀ crosser ∈ last.chain, crosser ∈ snapshot.chain ∨ ∃ hop ∈ hops, hop.Opens crosser := by
  induction hops generalizing snapshot with
  | nil => exact ⟨snapshot, rfl, by simp, fun _ member => .inl member⟩
  | cons hop rest ih =>
      have here := live hop List.mem_cons_self
      have outlined := outline_reached here snapshot
      have filled : (⟨(hop.reached snapshot).chain⟩ : Snapshot).isEmpty = false :=
        Chain.isEmpty_of_outline outlined occupied
      obtain ⟨last, arrives, carried, origin⟩ :=
        ih (fun other member => live other (List.mem_cons_of_mem _ member)) filled
      refine ⟨last, ?_, ?_, fun crosser member => ?_⟩
      · rw [travel, run_eq here occupied]
        exact arrives
      · rw [carried, outlined, List.flatMap_cons, List.append_assoc]
      · rcases origin crosser member with inside | ⟨later, listed, opens⟩
        · rcases mem_reached here inside with old | opens
          · exact .inl old
          · exact .inr ⟨hop, List.mem_cons_self, opens⟩
        · exact .inr ⟨later, List.mem_cons_of_mem _ listed, opens⟩

/-- The innermost crosser wins across any number of hops.  A snapshot is taken on
a thread with crossers on its chain and makes some hops, on any live threads and
with any handles opened on the way, up to a last one.  Its body finds a chain
with the crossers of the beginning and those opened on the way, in this order
and no others.  Of each type the last of them is in scope, or without one what
the thread of the last hop has had in scope just before. -/
theorem last_crosser_wins (context : Context) (process : Process Client)
    (hops : List (Hop Client)) (last : Hop Client)
    (occupied : (process.thread context.thread).chain ≠ [])
    (live : ∀ hop ∈ last :: hops, hop.thread.live) :
    let home := (process.thread context.thread).chain
    let carried := Chain.outline home ++
      hops.flatMap (fun hop => Opening.crossings hop.openings)
    ∃ snapshot sight taken,
      travel hops (Snapshot.capture context process).1 = .value snapshot ∧
      last.run snapshot = .value (sight, taken) ∧
      sight.snapshot.depth = home.depth +
        (hops.map fun hop => (Opening.crossings hop.openings).length).sum ∧
      (∀ type, sight.current type = (lastOf type carried).or (last.thread.current type)) ∧
      Chain.outline sight.snapshot.chain = carried ∧
      ∀ crosser ∈ sight.snapshot.chain,
        crosser ∈ home ∨ ∃ hop ∈ hops, hop.Opens crosser := by
  intro home carried
  let start : Snapshot := ⟨home⟩
  have captured : (Snapshot.capture context process).1 = .value start :=
    (Snapshot.capture_moves context.thread _ context process rfl rfl).1
  have filled : start.isEmpty = false := by simpa [start, Snapshot.isEmpty] using occupied
  have here := live last List.mem_cons_self
  obtain ⟨snapshot, arrives, outlined, origin⟩ :=
    travel_value (fun hop member => live hop (List.mem_cons_of_mem _ member)) filled
  have still : snapshot.isEmpty = false := Chain.isEmpty_of_outline outlined filled
  refine ⟨snapshot, _, _, captured ▸ arrives, run_eq here still, ?_, fun type => ?_,
    outlined, origin⟩
  · calc
      snapshot.depth = (Chain.outline snapshot.chain).length :=
        (Chain.length_outline snapshot.chain).symm
      _ = home.depth + _ := by
        rw [outlined, List.length_append, Chain.length_outline, List.length_flatMap]
  · change (snapshot.entered last.thread).current type = _
    rw [snapshot.current_entered_eq_or here, Chain.captor?_eq_lastOf, outlined]

/-- Two hops over a worker, which has a crosser of its own and opens two inside a
scope that hides one of them, to a thread with two captors of its own. -/
theorem last_crosser_wins_over_worker :
    let log : CaptorType := ⟨"Log"⟩
    let trace : CaptorType := ⟨"Trace"⟩
    let count : CaptorType := ⟨"Count"⟩
    let home : Process Unit := (Process.start ()).setThread .main
      ((Thread.fresh.setChain [⟨⟨.main, 0⟩, log, "first"⟩]).setCurrent log (some "first"))
    let worker : Process Unit := (Process.start ()).setThread (.worker "w")
      (Thread.fresh.setChain [⟨⟨.worker "w", 0⟩, count, "unseen"⟩])
    let goal : Process Unit := (Process.start ()).setThread (.spawned 1)
      ((Thread.fresh.setCurrent log (some "hidden")).setCurrent count (some "own"))
    let hop : Hop Unit := ⟨⟨.debug, .worker "w", false, []⟩, worker,
      [.crosser log "second", .capture log "near", .crosser trace "third"]⟩
    let last : Hop Unit := ⟨⟨.debug, .spawned 1, false, []⟩, goal, []⟩
    ∃ snapshot sight taken,
      travel [hop] (Snapshot.capture ⟨.debug, .main, false, []⟩ home).1 = .value snapshot ∧
      last.run snapshot = .value (sight, taken) ∧ sight.snapshot.depth = 3 ∧
      sight.current log = some "second" ∧ sight.current trace = some "third" ∧
      sight.current count = some "own" := by
  intro log trace count home worker goal hop last
  have live : ∀ stop ∈ [last, hop], stop.thread.live := by decide
  obtain ⟨snapshot, sight, taken, arrives, run, depth, wins, -⟩ :=
    last_crosser_wins ⟨.debug, .main, false, []⟩ home [hop] last (by decide) live
  refine ⟨snapshot, sight, taken, arrives, run, ?_, ?_, ?_, ?_⟩
  · rw [depth]
    decide
  · rw [wins log]
    decide
  · rw [wins trace]
    decide
  · rw [wins count]
    decide

end Hop

end Ambient
