import Ambient.Proofs.Departures
import Ambient.Proofs.HeapRegistry
import Ambient.Proofs.Leaks

/-!
# What is released

The parts come together here.  Giving up a reference takes away just what no other one
leads to, in the registry as in memory; and every reference that a run of a crew has made
and not given up is one that the registry counts, whatever has been ended out of order or
cut short by a panic; and so it is after any steps of a script.  So nothing goes too early,
and once all threads have ended nothing stays but what forgotten handles refer to.
-/

namespace Ambient

/-! ## What is still referred to -/

/-- The captors that a parcel refers to itself. -/
def Parcel.captors : Parcel → List CaptorId
  | .captor _ id => [id]
  | .bridge built => built.captor.toList
  | _ => []

namespace Frame

/-- The captors that a frame refers to itself. -/
def captors : Frame → List CaptorId
  | .handle opened _ => opened.captors
  | .call scopes _ => scopes.flatMap Scope.captors

/-- The captors that a frame refers to itself or through a chain. -/
def reached (frame : Frame) : List CaptorId :=
  frame.captors ++ frame.references.flatMap fun chain => chain.map Crosser.captor

end Frame

def Member.captors (member : Member) : List CaptorId :=
  (member.parcels ++ member.handed).flatMap Parcel.captors ++ member.frames.flatMap Frame.captors

namespace Process

/-- The captors that anything refers to: slots, threads and crossers. -/
def captors (process : Process Crew) (roster : List ThreadId) : List CaptorId :=
  process.threads.values.flatMap (fun thread => thread.slots.values) ++
    (roster.flatMap (fun id => (process.client id).captors) ++ process.registry.captors)

/-- The captors that forgotten handles refer to, themselves or through a chain. -/
def forgotten (process : Process Crew) (roster : List ThreadId) : List CaptorId :=
  roster.flatMap fun id =>
    ((process.client id).frames.filter Frame.isForgotten).flatMap Frame.reached

variable {process : Process Crew} {roster : List ThreadId}

/-- The captors of whatever a thread refers to are there. -/
theorem Kept.captor_mem (kept : process.Kept roster) {id : ThreadId} {chain : Chain}
    (has : chain ∈ (process.client id).references) {crosser : Crosser} (on : crosser ∈ chain) :
    crosser.captor ∈ process.registry.captors := by
  have listed : id ∈ roster := by
    by_contra absent
    rw [kept.idle id absent] at has
    contradiction
  have given : chain ∈ process.references roster :=
    List.mem_append_right _ (List.mem_flatMap.mpr ⟨id, listed, has⟩)
  exact kept.counts.mem_captors.mpr ⟨chain, given, crosser, on, rfl⟩

/-- A thread that has ended has nothing but what it has forgotten. -/
theorem Gone.frames_forgotten {id : ThreadId} (gone : process.Gone id) {frame : Frame}
    (member : frame ∈ (process.client id).frames) : frame.isForgotten := by
  rw [← gone.member] at member
  exact (List.mem_filter.mp member).2

theorem Gone.parcels_eq_nil {id : ThreadId} (gone : process.Gone id) :
    (process.client id).parcels ++ (process.client id).handed = [] := by
  rw [← gone.member]
  rfl

namespace Attended

/-- No thread has anything in its slots or on its chain once those that are there have
ended. -/
theorem thread_empty (attended : process.Attended roster) (ended : ∀ id ∈ roster, process.Gone id)
    {thread : Thread} (member : thread ∈ process.threads.values) :
    thread.slots = .empty ∧ thread.chain = [] := by
  obtain ⟨id, found⟩ := Table.find?_of_mem_values attended.kept.custody.distinct member
  have here : process.thread id = thread := by rw [Process.thread, found, Option.getD_some]
  by_cases listed : id ∈ roster
  · rw [← here, ← (ended id listed).thread]
    exact ⟨rfl, rfl⟩
  · rw [← here, attended.fresh id listed]
    exact ⟨rfl, rfl⟩

/-- Once all threads have ended, their frames are all that refers to any crosser. -/
theorem mem_registered_iff (attended : process.Attended roster)
    (ended : ∀ id ∈ roster, process.Gone id) (captor : CaptorId) :
    captor ∈ process.registry.captors ↔ ∃ id ∈ roster, ∃ frame ∈ (process.client id).frames,
      captor ∈ frame.references.flatMap fun chain => chain.map Crosser.captor := by
  rw [attended.kept.counts.mem_captors]
  constructor
  · rintro ⟨chain, given, crosser, on, rfl⟩
    rcases List.mem_append.mp given with own | has
    · obtain ⟨thread, member, rfl⟩ := List.mem_map.mp own
      rw [(attended.thread_empty ended member).2] at on
      contradiction
    · obtain ⟨id, listed, has⟩ := List.mem_flatMap.mp has
      rw [Member.references, (ended id listed).parcels_eq_nil, List.flatMap_nil,
        List.nil_append] at has
      obtain ⟨frame, member, has⟩ := List.mem_flatMap.mp has
      exact ⟨id, listed, frame, member, List.mem_flatMap.mpr ⟨chain, has, List.mem_map_of_mem on⟩⟩
  · rintro ⟨id, listed, frame, member, reached⟩
    obtain ⟨chain, has, on⟩ := List.mem_flatMap.mp reached
    obtain ⟨crosser, on, same⟩ := List.mem_map.mp on
    refine ⟨chain, List.mem_append_right _ (List.mem_flatMap.mpr ⟨id, listed, ?_⟩), crosser, on,
      same⟩
    exact List.mem_append_right _ (List.mem_flatMap.mpr ⟨frame, member, has⟩)

/-- Once all threads have ended, forgotten handles are all that refers to any captor. -/
theorem mem_captors_iff (attended : process.Attended roster)
    (ended : ∀ id ∈ roster, process.Gone id) (captor : CaptorId) :
    captor ∈ process.captors roster ↔ captor ∈ process.forgotten roster := by
  have slots : process.threads.values.flatMap (fun thread => thread.slots.values) = [] := by
    refine List.flatMap_eq_nil_iff.mpr fun thread member => ?_
    rw [(attended.thread_empty ended member).1]
    rfl
  have owned : captor ∈ roster.flatMap (fun id => (process.client id).captors) ↔ ∃ id ∈ roster,
      ∃ frame ∈ (process.client id).frames, captor ∈ frame.captors := by
    rw [List.mem_flatMap]
    refine exists_congr fun id => and_congr_right fun listed => ?_
    rw [Member.captors, (ended id listed).parcels_eq_nil, List.flatMap_nil, List.nil_append,
      List.mem_flatMap]
  have left : captor ∈ process.forgotten roster ↔ ∃ id ∈ roster,
      ∃ frame ∈ (process.client id).frames, captor ∈ frame.reached := by
    rw [forgotten, List.mem_flatMap]
    refine exists_congr fun id => and_congr_right fun listed => ?_
    rw [List.filter_eq_self.mpr fun frame member => (ended id listed).frames_forgotten member,
      List.mem_flatMap]
  rw [captors, slots, List.nil_append, List.mem_append, owned,
    attended.mem_registered_iff ended, left]
  constructor
  · rintro (⟨id, listed, frame, member, own⟩ | ⟨id, listed, frame, member, linked⟩)
    · exact ⟨id, listed, frame, member, List.mem_append_left _ own⟩
    · exact ⟨id, listed, frame, member, List.mem_append_right _ linked⟩
  · rintro ⟨id, listed, frame, member, reached⟩
    rcases List.mem_append.mp reached with own | linked
    · exact .inl ⟨id, listed, frame, member, own⟩
    · exact .inr ⟨id, listed, frame, member, linked⟩

end Attended

/-- Of any heap that counts its references, dropping one comes to an end, takes away just
the nodes that no other reference leads to, as a recursive drop does, and leaves the others
and all walks from them as they were; the counts are right again.  The registry gives up a
chain in just this way, and the captors that go are those of the nodes that do.  After any
turns of any crew, and whichever of its threads have ended, the registry counts what is
referred to.  So the captors of all chains that a thread refers to are there; and when all
threads have ended, nothing refers to any captor but what they have forgotten.  So it is
with the steps of any script too, and the captors that it reports as leaked are those that
its forgotten handles refer to. -/
theorem events_release_exactly :
    (∀ (heap : Heap) (nodes : List CrosserId) (link : Option CrosserId)
      (references : List (Option CrosserId)), heap.Counted nodes (link :: references) →
      ∃ after freed nested rest enough,
        (∀ rounds, enough ≤ rounds → heap.drop rounds link = some (after, freed)) ∧
        (∀ depth, enough ≤ depth → heap.dropNested depth link = some (after, nested)) ∧
        nested.Perm freed ∧ nodes.Perm (freed ++ rest) ∧ heap.Sheds references freed after ∧
        after.Counted rest references) ∧
    (∀ (registry : Registry) (chain : Chain) (references : List Chain),
      registry.Counts (chain :: references) →
      registry.heap.Counted (registry.registrations.map (·.crosser.id))
        ((chain :: references).map Chain.node?) ∧
      (∀ rounds, chain.length ≤ rounds → registry.heap.drop rounds chain.node? =
        some ((registry.release chain).heap, registry.freedInOrder chain)) ∧
      (registry.release chain).Counts references ∧
      registry.captors.Perm
        ((registry.freed chain).map Crosser.captor ++ (registry.release chain).captors)) ∧
    (∀ (build : Build) (plans : ThreadId → List Task) (roster : List ThreadId)
      (order : List Crew.Event) (process : Process Crew), roster.Nodup →
      (∀ event ∈ order, event.thread ∈ roster) →
      events build order (start fun id => Member.start (plans id)) = some process →
      process.registry.Counts (process.references roster) ∧
      (∀ id, ∀ chain ∈ (process.client id).references, ∀ crosser ∈ chain,
        crosser.captor ∈ process.registry.captors) ∧
      ((∀ id ∈ roster, .leave id ∈ order) →
        ∀ captor, captor ∈ process.captors roster ↔ captor ∈ process.forgotten roster)) ∧
    ∀ (build : Build) (program : List Script.Step),
      let start := start Script.Session.start
      let last := (Script.Program.steps .standard 0 program ⟨build, .main, false, []⟩ start).2
      (last.registry.Counts (last.chains ++ last.client.references) ∧
        ∀ chain ∈ last.chains ++ last.client.references, ∀ crosser ∈ chain,
          crosser.captor ∈ last.registry.captors) ∧
      let leaked := (Script.Program.run build program).leaked
      ∃ ended, Script.Program.act program ⟨build, .main, false, []⟩ start = (.value leaked, ended) ∧
        ∀ captor, captor ∈ leaked ↔
          ∃ handle ∈ ended.client.forgotten, captor ∈ handle.reached := by
  refine ⟨fun heap nodes link references counted => counted.drop,
    fun registry chain references counts => ⟨counts.counted, fun rounds => counts.drop_eq,
      counts.release, counts.captors_perm⟩,
    fun build plans roster order process distinct listed ran => ?_,
    fun build program => ⟨Script.Program.steps_counts build program,
      Script.Program.run_leaves_forgotten build program⟩⟩
  have attended : process.Attended roster :=
    (start_attended roster plans).events distinct listed ran
  refine ⟨attended.kept.counts, fun id chain has crosser on => attended.kept.captor_mem has on,
    fun left => ?_⟩
  exact attended.mem_captors_iff fun id listed => gone_of_leave ran (left id listed)

/-- The outer of two crossers is ended before the inner one, which is forgotten, and a
worker ends inside a call of a snapshot of both with a crosser of its own still open.  If
the forgotten handle were dropped after all, both nodes would go with it. -/
theorem events_release_exactly_but_forgotten :
    let worker : ThreadId := .worker "worker"
    let roster : List ThreadId := [.main, worker]
    let plans (id : ThreadId) : List Task :=
      if id = .main then
        [.make ⟨"Log"⟩ "log", .open .crosser 0, .make ⟨"Net"⟩ "net", .open .crosser 1,
          .capture, .hand 2, .finish 1, .forget 0]
      else
        [.receive .main 0, .call 0 [.make ⟨"Log"⟩ "own", .open .crosser 1, .raise "stop"]]
    let order := List.replicate 6 (.turn .main) ++ List.replicate 5 (.turn worker) ++
      List.replicate 2 (.turn .main) ++ [.leave .main, .leave worker]
    let outer : Crosser := ⟨⟨.main, 0⟩, ⟨"Log"⟩, "log"⟩
    let inner : Crosser := ⟨⟨.main, 1⟩, ⟨"Net"⟩, "net"⟩
    ∃ process, events .release order (start fun id => Member.start (plans id)) = some process ∧
      process.registry.captors = ["log", "net"] ∧
      "log" ∈ process.captors roster ∧ "own" ∉ process.captors roster ∧
      process.registry.Counts [[inner, outer], [], []] ∧
      (process.registry.release [inner, outer]).Counts [[], []] ∧
      ∃ depth after nested,
        process.registry.heap.dropNested depth (some inner.id) = some (after, nested) ∧
        nested.Perm [outer.id, inner.id] := by
  intro worker roster plans order outer inner
  let run := events .release order (start fun id => Member.start (plans id))
  obtain ⟨process, ran⟩ := Option.isSome_iff_exists.mp
    (show run.isSome by decide +kernel)
  have seen : run.map (fun last => (last.registry.captors,
      decide ("log" ∈ last.forgotten roster), decide ("own" ∈ last.forgotten roster),
      last.references roster, last.registry.freedInOrder [inner, outer])) =
      some (["log", "net"], true, false, [[], [], [inner, outer]], [outer.id, inner.id]) := by
    decide +kernel
  rw [ran] at seen
  simp only [Option.map_some, Option.some.injEq, Prod.mk.injEq, decide_eq_true_eq,
    decide_eq_false_iff_not] at seen
  obtain ⟨captors, log, own, references, order⟩ := seen
  obtain ⟨heaps, registries, run, -⟩ := events_release_exactly
  obtain ⟨counts, -, left⟩ := run .release plans roster _ process (by decide) (by decide) ran
  have still := left (by decide)
  rw [references] at counts
  have turned : ([[], []] ++ [[inner, outer]]).Perm [[inner, outer], [], []] :=
    List.perm_append_comm
  have counts : process.registry.Counts [[inner, outer], [], []] := counts.perm turned
  obtain ⟨counted, drops, rest, -⟩ := registries _ _ _ counts
  obtain ⟨after, freed, nested, -, enough, dropped, recursive, same, -⟩ := heaps _ _ _ _ counted
  have gone : some (after, freed) = some (_, [outer.id, inner.id]) :=
    (dropped (enough + 2) (Nat.le_add_right ..)).symm.trans
      ((drops (enough + 2) (Nat.le_add_left ..)).trans (by rw [order]))
  obtain ⟨-, rfl⟩ := Prod.mk.inj (Option.some.inj gone)
  exact ⟨process, ran, captors, (still "log").mpr log, mt (still "own").mp own, counts, rest,
    enough, after, nested, recursive enough (Nat.le_refl _), same⟩

end Process

end Ambient
