import Ambient.Proofs.Accounts

/-!
# Blocks run as they mean

Running a block on a live thread gives the outcome and the observations that the
block means in the scene that the thread shows.  No end of a scope or of a call
finds anything out of order, and the thread shows the same scene again
afterwards.  The proof goes part by part: an act is faithful to a meaning if it
does what is meant wherever a scene is staged, and keeps the scene there.
-/

namespace Ambient

namespace Process

/-- What a thread shows, of which nothing has been lent. -/
def scene (process : Process Notebook) (id : ThreadId) : Scene :=
  ⟨id, (process.thread id).current, (process.thread id).chain, []⟩

/-- A scene is staged on its thread. -/
abbrev Stages (process : Process Notebook) (scene : Scene) : Prop :=
  process.Ready scene.thread (·.Shows scene)

end Process

/-! ## Acts and meanings -/

/-- An act does what is meant wherever the scene is staged, and finds no misuse. -/
def Faithful (act : Act Notebook Unit) (scene : Scene)
    (meaning : Ledger → Outcome Unit × Ledger) : Prop :=
  Follows scene.thread (·.Shows scene) act fun _ ledger => .silent (meaning ledger)

namespace Faithful

variable {scene : Scene} {first second act : Act Notebook Unit}
  {meaning meaning' : Ledger → Outcome Unit × Ledger}

theorem write {change : Notebook → Notebook}
    (same : ∀ notebook, (change notebook).spawned = notebook.spawned) :
    Faithful (Act.modifyClient change) scene
      (fun ledger => (.value (), ledger.write change)) :=
  Follows.write same

theorem note (observation : Observation) :
    Faithful (Block.note observation) scene
      (fun ledger => (.value (), ledger.note observation)) :=
  Follows.note observation

theorem andThen (front : Faithful first scene meaning)
    (back : Faithful second scene meaning') :
    Faithful (first >>= fun _ => second) scene fun ledger =>
      match meaning ledger with
      | (.value _, next) => meaning' next
      | (.panic panic, next) => (.panic panic, next) :=
  (Follows.andThen front back).congr fun _ ledger =>
    Account.silent_andThen (meaning ledger) meaning'

/-- An act that only looks at the thread sees the scene. -/
theorem seeing {α : Type} {look : Act Notebook α} {value : α} {next : α → Act Notebook Unit}
    (moves : ∀ thread, thread.Shows scene →
      look.Moves scene.thread thread value [] thread)
    (rest : Faithful (next value) scene meaning) :
    Faithful (look >>= next) scene meaning :=
  Follows.seeing moves rest

theorem reading {next : Notebook → Act Notebook Unit}
    {meaning : Notebook → Ledger → Outcome Unit × Ledger}
    (rest : ∀ notebook, Faithful (next notebook) scene (meaning notebook)) :
    Faithful (Act.client >>= next) scene fun ledger => meaning ledger.notebook ledger :=
  Follows.reading rest

theorem holding (captors : List CaptorId) (body : Faithful act scene meaning) :
    Faithful (Act.holding captors act) scene meaning :=
  Follows.holding captors body

theorem within {opening : Opening} {rest : Handle → Act Notebook Unit}
    (meaning : Nat → Ledger → Outcome Unit × Ledger)
    (body : ∀ thread, thread.Shows scene →
      Faithful (rest (opening.handle scene.thread thread))
        (scene.within thread.opened opening) (meaning thread.opened)) :
    Faithful (opening.start >>= fun handle => (rest handle).ensuring handle.finish) scene
      fun ledger => meaning ledger.opened (ledger.count opening) := by
  have inner : ∀ thread, thread.Shows scene →
      Follows scene.thread (·.Shows (scene.within thread.opened opening))
        (rest (opening.handle scene.thread thread))
        fun _ ledger => .silent (meaning thread.opened ledger) := by
    intro thread shows
    have follows := body thread shows
    rwa [Faithful, Scene.thread_within] at follows
  have follows := Follows.within _ (fun opened _ ledger => .silent (meaning opened ledger)) inner
    (fun _ shows => opening.shows_entered shows)
    (fun _ _ shows inside => opening.silent shows inside)
    (fun _ _ shows inside => opening.shows_closed shows inside)
  exact follows.congr fun _ _ => Account.closing_nil _ _

theorem inside {snapshot : Snapshot} {body : Act Notebook Unit}
    (faithful : Faithful body (scene.inside snapshot) meaning) :
    Faithful (snapshot.run body) scene meaning := by
  cases occupied : snapshot.isEmpty with
  | true =>
      have empty : snapshot.chain = [] := by simpa [Snapshot.isEmpty] using occupied
      have unchanged : scene.inside snapshot = scene := by simp [Scene.inside, occupied]
      rw [Snapshot.run_of_empty empty]
      exact unchanged ▸ faithful
  | false =>
      rw [Faithful, Scene.thread_inside] at faithful
      have follows := faithful.inside occupied
        (fun _ shows => Snapshot.shows_entered occupied shows)
        (fun thread _ _ inside => Snapshot.silent occupied inside thread)
        (fun _ _ shows inside => Snapshot.shows_closed occupied shows inside)
      exact follows.congr fun _ _ => Account.closing_nil _ _

/-- The layers of a call are calls inside calls. -/
theorem layers {body : Act Notebook Unit} {meaning : Scene → Ledger → Outcome Unit × Ledger}
    (faithful : ∀ inner : Scene, inner.lent = scene.lent →
      Faithful body inner (meaning inner)) (snapshots : List Snapshot) :
    Faithful (Snapshot.runAll snapshots body) scene
      (meaning (snapshots.foldl Scene.inside scene)) := by
  induction snapshots generalizing scene with
  | nil => exact faithful scene rfl
  | cons snapshot rest ih =>
      apply inside
      apply ih
      intro inner lent
      apply faithful
      rw [lent, Scene.lent_inside]

end Faithful

/-! ## Blocks -/

namespace Block

variable {scene : Scene}

theorem bridge_faithful (type : CaptorType) :
    Faithful (Bridge.build type >>= fun bridge => Act.modifyClient (·.keepBridge bridge))
      scene fun ledger =>
        (.value (), ledger.write (·.keepBridge ⟨type, scene.environment type⟩)) := by
  refine .seeing (fun thread shows => ?_) (.write fun _ => rfl)
  rw [← shows.current type]
  exact Bridge.build_moves type scene.thread thread

/-- A message reaches the captor in scope. -/
def delivery (type : CaptorType) (message : String) : Option CaptorId → Act Notebook Unit
  | none => note (.answered type false)
  | some captor => do
      Act.holding [captor] (note (.received type captor message))
      note (.answered type true)

theorem run_send (type : CaptorType) (message : String) (scopes : List Scope) :
    (send type message).run scopes = Act.current type >>= delivery type message := by
  simp only [run, Act.dispatch, bind_assoc]
  congr 1
  funext found
  cases found <;> simp [delivery]

theorem send_faithful (type : CaptorType) (message : String) (scopes : List Scope) :
    Faithful ((send type message).run scopes) scene ((send type message).meaning scene) := by
  rw [run_send]
  refine .seeing (fun thread shows => shows.current type ▸ Act.current_moves _ thread type) ?_
  cases found : scene.environment type with
  | none =>
      have meant : (send type message).meaning scene =
          fun ledger => (.value (), ledger.note (.answered type false)) := by
        funext ledger
        simp only [meaning, found]
      rw [meant]
      exact .note _
  | some captor =>
      have meant : (send type message).meaning scene = fun ledger =>
          (.value (), (ledger.note (.received type captor message)).note
            (.answered type true)) := by
        funext ledger
        simp only [meaning, found]
      rw [meant]
      exact ((Faithful.note _).holding [captor]).andThen (.note _)

/-- Every part of a block does what it means in the scene around it. -/
theorem run_faithful (block : Block) (scopes : List Scope) (scene : Scene)
    (lent : scopes.map Bridge.ofScope = scene.lent) :
    Faithful (block.run scopes) scene (block.meaning scene) := by
  induction block generalizing scopes scene with
  | done => exact Follows.done
  | andThen first second front back =>
      exact (front scopes scene lent).andThen (back scopes scene lent)
  | current type =>
      refine .seeing (fun thread shows => ?_) (.note (.current type (scene.environment type)))
      rw [← shows.current type]
      exact Act.current_moves scene.thread thread type
  | send type message => exact send_faithful type message scopes
  | capture =>
      refine .seeing (fun thread shows => ?_) (.write fun _ => rfl)
      rw [← shows.chain]
      exact Snapshot.capture_moves scene.thread thread
  | point =>
      refine .seeing (fun thread shows => ?_) (.write fun _ => rfl)
      rw [← shows.chain]
      exact Snapshot.build_point_moves scene.thread thread
  | compare first second => exact .reading fun notebook => .note _
  | depth position => exact .reading fun notebook => .note _
  | bridge type => exact bridge_faithful type
  | bridgeOf type level =>
      have listed : (scene.lent.filter (·.type = type))[level]? =
          (scopes.filter (·.type = type))[level]?.map Bridge.ofScope := by
        rw [← lent, List.filter_map, List.getElem?_map]
        rfl
      cases found : (scopes.filter (·.type = type))[level]? with
      | none =>
          have meant : (bridgeOf type level).meaning scene = (bridge type).meaning scene := by
            funext ledger
            simp only [meaning, listed, found, Option.map_none, Option.getD_none]
          simp only [run, found, meant]
          exact bridge_faithful type
      | some scope =>
          have meant : (bridgeOf type level).meaning scene = fun ledger =>
              (.value (), ledger.write (·.keepBridge (.ofScope scope))) := by
            funext ledger
            simp only [meaning, listed, found, Option.map_some, Option.getD_some]
          simp only [run, found, meant]
          exact .write fun _ => rfl
  | within enclosure body bodyFaithful =>
      have opened : ∀ notebook : Notebook,
          Faithful (runWithin body.run scopes (enclosure.opening? notebook)) scene
            fun ledger =>
              meaningWithin body.meaning scene ledger (enclosure.opening? notebook) := by
        intro notebook
        cases enclosure.opening? notebook with
        | none => exact bodyFaithful scopes scene lent
        | some opening =>
            refine .within (fun opened ledger => body.meaning (scene.within opened opening)
              (ledger.note (.previous opening.type (scene.environment opening.type))))
              fun thread shows => ?_
            rw [enclosed, opening.previous_handle, shows.current]
            apply (Faithful.note _).andThen
            apply Faithful.holding
            apply bodyFaithful
            rw [List.map_append, lent, opening.lent_within]
      exact .reading opened
  | call layers body bodyFaithful =>
      exact .reading fun notebook => .layers
        (fun inner same => bodyFaithful scopes inner (lent.trans same.symm))
        (layers.map notebook.snapshot)
  | enter position body bodyFaithful =>
      exact .reading fun notebook => .inside
        (bodyFaithful scopes _ (lent.trans (scene.lent_inside _).symm))
  | thread body bodyFaithful =>
      exact Follows.onFreshThread fun id => bodyFaithful [] (.bare id) rfl
  | raise message => exact Follows.raise (.raised message)
  | attempt body bodyFaithful => exact Follows.attempt (bodyFaithful scopes scene lent) _

/-- Running a block is lexical.  On any live thread the outcome and all that is
written down are what the block means in the scene that the thread shows, no
misuse is recorded, and the slots and the chain are as before.  The threads that
the block spawns have to be fresh ones, as they are in every run from the start. -/
theorem run_lexical (block : Block) (context : Context) (process : Process Notebook)
    (live : (process.thread context.thread).live)
    (spare : process.Spare context.thread) :
    let meant := block.meaning (process.scene context.thread)
      (process.ledger context.thread)
    let result := block.run [] context process
    result.1 = meant.1 ∧ result.2.client = meant.2.notebook ∧
      result.2.misuses = process.misuses ∧
      (result.2.thread context.thread).chain = (process.thread context.thread).chain ∧
      ∀ type, (result.2.thread context.thread).current type =
        (process.thread context.thread).current type := by
  intro meant result
  let scene := process.scene context.thread
  have stages : process.Stages scene := ⟨⟨live, fun _ => rfl, rfl⟩, spare⟩
  obtain ⟨outcome, ledger, misuses, shows, -⟩ :=
    block.run_faithful [] scene rfl context process rfl stages
  exact ⟨outcome, congrArg Ledger.notebook ledger, misuses.trans (List.append_nil _),
    shows.chain, shows.current⟩

/-- A snapshot is called on a fresh thread, where a panic passes, and a bridge of
an outer scope is crossed inside an inner one. -/
theorem run_lexical_across_threads :
    let type : CaptorType := ⟨"Log"⟩
    let calling : Block :=
      thread (call [0] ((send type "called").andThen (raise "gone")))
    let crossing : Block :=
      (bridgeOf type 1).andThen (within (.crossing 0) (current type))
    let inner : Block := within (.capture type "inner") (calling.andThen crossing)
    let block : Block :=
      within (.capture type "outer") (within (.crosser type "log") (capture.andThen inner))
    let context : Context := ⟨.debug, .main, false, []⟩
    (block.run [] context (.start .empty)).1 = .value () ∧
      (block.run [] context (.start .empty)).2.client.trace =
        [.previous type none, .previous type (some "outer"), .previous type (some "log"),
          .received type "log" "called", .answered type true,
          .joined (.panic (.raised "gone")), .bridged type (some "outer"),
          .previous type (some "inner"), .current type (some "outer")] := by
  intro type calling crossing inner block context
  obtain ⟨outcome, written, -⟩ :=
    run_lexical block context (.start .empty) rfl (Process.start_spare .empty)
  rw [outcome, written]
  exact ⟨by decide +kernel, by decide +kernel⟩

end Block

end Ambient
