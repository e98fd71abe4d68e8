import Ambient.Proofs.Block
import Ambient.Proofs.Reentry

/-!
# Scenes on a thread

A live thread shows a scene when its slots and its chain have what is in scope
there.  The start of a scope or of a call makes the thread show the scene
inside.  As long as that scene is shown again in the end, the end finds what the
start has left, reports nothing, and makes the thread show the scene of before.
-/

namespace Ambient

/-- A live thread has in its slots and on its chain what is in scope. -/
structure Thread.Shows (thread : Thread) (scene : Scene) : Prop where
  live : thread.live
  current : ∀ type, thread.current type = scene.environment type
  chain : thread.chain = scene.chain

namespace Thread.Shows

variable {thread : Thread} {scene : Scene}

theorem setCurrent (shows : thread.Shows scene) (type : CaptorType)
    (captor : Option CaptorId) :
    (thread.setCurrent type captor).Shows (scene.showing type captor) where
  live := by simpa using shows.live
  current := by simp [Scene.showing, shows.live, shows.current]
  chain := by simpa [Scene.showing] using shows.chain

theorem setChain (shows : thread.Shows scene) (chain : Chain) :
    (thread.setChain chain).Shows { scene with chain := chain } where
  live := by simpa using shows.live
  current := by simpa using shows.current
  chain := by simp [shows.live]

/-- Putting back what was in scope before. -/
theorem setBack {type : CaptorType} {captor : Option CaptorId}
    (shows : thread.Shows (scene.showing type captor)) :
    (thread.setCurrent type (scene.environment type)).Shows scene where
  live := by simpa using shows.live
  current := by
    intro other
    have shown := shows.current other
    simp only [Scene.showing] at shown
    by_cases same : type = other
    · simp [same, shows.live]
    · simpa [same] using shown
  chain := by simpa [Scene.showing] using shows.chain

end Thread.Shows

theorem Thread.shows_fresh (id : ThreadId) : Thread.fresh.Shows (.bare id) :=
  ⟨rfl, fun _ => rfl, rfl⟩

/-! ## Scopes -/

namespace Opening

variable {scene : Scene} {thread left : Thread}

theorem shows_entered (opening : Opening) (shows : thread.Shows scene) :
    (opening.entered scene.thread thread).Shows (scene.within thread.opened opening) := by
  cases opening with
  | capture type captor =>
      obtain ⟨live, current, chain⟩ := shows.setCurrent type (some captor)
      exact ⟨live, current, chain⟩
  | crossing bridge => exact shows.setCurrent bridge.type bridge.captor
  | crosser type captor =>
      let scope := CrosserScope.ofThread scene.thread thread type captor
      have counted : Thread.Shows { thread with opened := thread.opened + 1 } scene :=
        ⟨shows.live, shows.current, shows.chain⟩
      obtain ⟨live, current, chain⟩ :=
        (counted.setChain scope.node).setCurrent type (some captor)
      refine ⟨live, current, chain.trans ?_⟩
      simp [scope, CrosserScope.node, CrosserScope.ofThread, Scene.showing, Scene.within,
        shows.chain]

/-- After a body that keeps its scene the end finds everything in order. -/
theorem silent (opening : Opening) (shows : thread.Shows scene)
    (inside : left.Shows (scene.within thread.opened opening)) :
    (opening.handle scene.thread thread).faults left = [] := by
  have held : left.current opening.type = opening.installed := by
    rw [inside.current, Scene.environment_within, if_pos rfl]
  cases opening with
  | capture type captor => exact Scope.faults_eq_nil.mpr held
  | crossing bridge => exact Scope.faults_eq_nil.mpr held
  | crosser type captor =>
      have linked := inside.chain
      simp only [Scene.within, ← shows.chain] at linked
      apply List.append_eq_nil_iff.mpr
      constructor
      · exact CrosserScope.chainFaults_eq_nil.mpr linked
      · exact Scope.faults_eq_nil.mpr held

theorem shows_closed (opening : Opening) (shows : thread.Shows scene)
    (inside : left.Shows (scene.within thread.opened opening)) :
    ((opening.handle scene.thread thread).closed left).Shows scene := by
  cases opening with
  | capture type captor =>
      have filled : left.Shows (scene.showing type (some captor)) :=
        ⟨inside.live, inside.current, inside.chain⟩
      simpa [handle, Handle.closed, Scope.closed, shows.current] using filled.setBack
  | crossing bridge =>
      simpa [handle, Handle.closed, Scope.closed, shows.current] using inside.setBack
  | crosser type captor =>
      have unlinked := inside.setChain scene.chain
      have filled : (left.setChain scene.chain).Shows (scene.showing type (some captor)) :=
        ⟨unlinked.live, unlinked.current, unlinked.chain⟩
      simpa [handle, Handle.closed, Scope.closed, CrosserScope.ofThread, shows.current,
        shows.chain] using filled.setBack

theorem previous_handle (opening : Opening) (id : ThreadId) (thread : Thread) :
    (opening.handle id thread).previous = thread.current opening.type := by
  cases opening <;> rfl

/-- What a scope lends in a run is what it lends in the scene. -/
theorem lent_within (opening : Opening) (scene : Scene) (thread : Thread) :
    (scene.within thread.opened opening).lent =
      (opening.lent (opening.handle scene.thread thread)).map Bridge.ofScope ++
        scene.lent := by
  cases opening <;> rfl

theorem count_entered (opening : Opening) (id : ThreadId) (thread : Thread)
    (notebook : Notebook) :
    (⟨notebook, (opening.entered id thread).opened⟩ : Ledger) =
      Ledger.count ⟨notebook, thread.opened⟩ opening := by
  cases opening <;> simp [entered, CrosserScope.entered, Ledger.count]

end Opening

/-! ## Calls -/

/-- Scopes of distinct types end in order in any order. -/
theorem Scope.faultsAll_eq_nil {scopes : List Scope} {thread : Thread}
    (distinct : (scopes.map (·.type)).Nodup)
    (held : ∀ scope ∈ scopes, thread.current scope.type = scope.installed) :
    faultsAll scopes thread = [] := by
  induction scopes generalizing thread with
  | nil => rfl
  | cons scope rest ih =>
      rcases List.nodup_cons.mp distinct with ⟨absent, distinct⟩
      have first : scope.faults thread = [] :=
        faults_eq_nil.mpr (held scope List.mem_cons_self)
      have others : faultsAll rest (scope.closed thread) = [] := by
        apply ih distinct
        intro other member
        have apart : scope.type ≠ other.type := fun same =>
          absent (List.mem_map.mpr ⟨other, member, same.symm⟩)
        simpa [closed, apart] using held other (List.mem_cons_of_mem _ member)
      exact List.append_eq_nil_iff.mpr ⟨first, others⟩

namespace Snapshot

variable {snapshot : Snapshot} {scene : Scene} {thread left : Thread}

theorem mem_types_iff (snapshot : Snapshot) (type : CaptorType) :
    type ∈ snapshot.types ↔ Chain.captor? type snapshot.chain ≠ none := by
  rw [ne_eq, Chain.captor?_eq_none_iff, not_not, types]

theorem environment_inside (occupied : snapshot.isEmpty = false) (scene : Scene)
    (type : CaptorType) :
    (scene.inside snapshot).environment type =
      if type ∈ snapshot.types then Chain.captor? type snapshot.chain
      else scene.environment type := by
  simp only [Scene.inside, occupied, mem_types_iff]
  cases found : Chain.captor? type snapshot.chain <;> simp [found]

theorem shows_entered (occupied : snapshot.isEmpty = false) (shows : thread.Shows scene) :
    (snapshot.entered thread).Shows (scene.inside snapshot) where
  live := by simpa using shows.live
  current := by
    intro type
    simp only [current_entered, shows.live, true_and, shows.current,
      environment_inside occupied]
  chain := by simp [chain_entered, shows.live, Scene.inside, occupied]

/-- After a body that keeps its scene the end finds everything in order. -/
theorem silent (occupied : snapshot.isEmpty = false)
    (inside : left.Shows (scene.inside snapshot)) (thread : Thread) :
    snapshot.faults thread left = [] := by
  have linked : left.chain = snapshot.chain := by
    simpa [Scene.inside, occupied] using inside.chain
  have slots : Scope.faultsAll (snapshot.guards thread) (left.setChain thread.chain) = [] := by
    apply Scope.faultsAll_eq_nil
    · simpa [guards_eq_map, Function.comp_def] using snapshot.entries_types_nodup
    · intro scope member
      rw [guards_eq_map] at member
      rcases List.mem_map.mp member with ⟨crosser, listed, rfl⟩
      have innermost := Chain.captor?_of_mem_innermost (List.mem_reverse.mp listed)
      have present : crosser.type ∈ snapshot.types := by simp [mem_types_iff, innermost]
      rw [Thread.current_setChain, inside.current, environment_inside occupied,
        if_pos present, innermost]
  exact List.append_eq_nil_iff.mpr ⟨Delegation.faults_eq_nil.mpr linked, slots⟩

theorem shows_closed (occupied : snapshot.isEmpty = false) (shows : thread.Shows scene)
    (inside : left.Shows (scene.inside snapshot)) :
    (snapshot.closed thread left).Shows scene where
  live := by simpa using inside.live
  current := by
    intro type
    rw [current_closed, inside.current, environment_inside occupied, shows.current]
    by_cases present : type ∈ snapshot.types <;> simp [present, inside.live]
  chain := by rw [chain_closed, if_pos inside.live, shows.chain]

end Snapshot

end Ambient
