import Ambient.Proofs.Hops
import Ambient.Proofs.Moments
import Ambient.Proofs.Stepping

/-!
# Layers and the towers they form

Inside several snapshots the slot of each type and the chain follow different rules.
A layer hides what the layers around it have of its own types only, while its chain
takes the place of theirs unless it is empty.  So of each type the last layer that
has one decides, and of the chains the last one that is not empty.

Whatever is wrapped is a tower of such layers around what it does.  Wrapping it once
more either adds a layer on the outside, with the snapshot of that moment, or leaves
it alone, when it is recognised as wrapped already.  Taking the wrapping off removes
the outermost layer.  However a tower was built, it runs inside its layers.
-/

namespace Ambient

variable {Client α : Type}

/-! ## What the layers show -/

namespace Snapshot

/-- The captor that the last of some layers has which has one of the type. -/
def nearest? (type : CaptorType) (layers : List Snapshot) : Option CaptorId :=
  layers.reverse.findSome? fun layer => Chain.captor? type layer.chain

/-- The last of some layers that is not empty. -/
def lastFilled? (layers : List Snapshot) : Option Snapshot :=
  layers.reverse.find? fun layer => !layer.isEmpty

theorem nearest?_cons (type : CaptorType) (layer : Snapshot) (rest : List Snapshot) :
    nearest? type (layer :: rest) =
      (nearest? type rest).or (Chain.captor? type layer.chain) := by
  simp [nearest?, List.findSome?_append]

theorem lastFilled?_cons (layer : Snapshot) (rest : List Snapshot) :
    lastFilled? (layer :: rest) =
      (lastFilled? rest).or (if layer.isEmpty then none else some layer) := by
  cases empty : layer.isEmpty <;> simp [lastFilled?, List.find?_append, empty]

end Snapshot

namespace Scene

theorem environment_insideAll (layers : List Snapshot) (scene : Scene) (type : CaptorType) :
    (layers.foldl inside scene).environment type =
      (Snapshot.nearest? type layers).or (scene.environment type) := by
  induction layers generalizing scene with
  | nil => rfl
  | cons layer rest ih =>
      have here : (scene.inside layer).environment type =
          (Chain.captor? type layer.chain).or (scene.environment type) := by
        cases empty : layer.isEmpty with
        | false => simp [inside, empty]
        | true =>
            have none : layer.chain = [] := by simpa [Snapshot.isEmpty] using empty
            simp [inside, empty, none, Chain.captor?]
      rw [List.foldl_cons, ih, here, Snapshot.nearest?_cons, Option.or_assoc]

theorem chain_insideAll (layers : List Snapshot) (scene : Scene) :
    (⟨(layers.foldl inside scene).chain⟩ : Snapshot) =
      (Snapshot.lastFilled? layers).getD ⟨scene.chain⟩ := by
  induction layers generalizing scene with
  | nil => rfl
  | cons layer rest ih =>
      rw [List.foldl_cons, ih, Snapshot.lastFilled?_cons]
      cases Snapshot.lastFilled? rest with
      | some found => rfl
      | none => cases empty : layer.isEmpty <;> simp [inside, empty]

end Scene

/-! ## Bodies inside layers -/

namespace Snapshot

variable {snapshot : Snapshot}

/-- A call is decided by what its body does at the place inside. -/
theorem run_congr {body other : Act Client α} {context : Context} {process : Process Client}
    (same : body (snapshot.inside context process).1 (snapshot.inside context process).2 =
      other (snapshot.inside context process).1 (snapshot.inside context process).2) :
    snapshot.run body context process = snapshot.run other context process := by
  by_cases empty : snapshot.chain = []
  · rw [inside_of_empty empty] at same
    rwa [run_of_empty empty, run_of_empty empty]
  · rw [run_of_occupied empty, run_of_occupied empty]
    simp only [Act.ensuring, same]

theorem runAll_congr (layers : List Snapshot) {body : Act Client α} (other : Act Client α)
    (now : Context × Process Client)
    (same : body (insideAll layers now).1 (insideAll layers now).2 =
      other (insideAll layers now).1 (insideAll layers now).2) :
    runAll layers body now.1 now.2 = runAll layers other now.1 now.2 := by
  induction layers generalizing now with
  | nil => exact same
  | cons layer rest ih => exact run_congr (ih _ same)

/-- Entering layers moves the thread and nothing else. -/
theorem insideAll_moved (layers : List Snapshot) (now : Context × Process Client) :
    (insideAll layers now).1.thread = now.1.thread ∧
      Process.Moved now.1.thread now.2 (insideAll layers now).2 []
        ((insideAll layers now).2.thread now.1.thread) := by
  induction layers generalizing now with
  | nil => exact ⟨rfl, .refl _ _⟩
  | cons layer rest ih =>
      have here : (layer.inside now.1 now.2).1.thread = now.1.thread :=
        layer.inside_thread now.1 now.2
      obtain ⟨same, inner⟩ := ih (layer.inside now.1 now.2)
      rw [here] at same inner
      exact ⟨same, (layer.moved_inside now.1 now.2).trans inner⟩

theorem shows_insideAll (layers : List Snapshot) {scene : Scene}
    {now : Context × Process Client} (shows : (now.2.thread now.1.thread).Shows scene) :
    ((insideAll layers now).2.thread now.1.thread).Shows (layers.foldl Scene.inside scene) := by
  induction layers generalizing scene now with
  | nil => exact shows
  | cons layer rest ih =>
      have here : (layer.inside now.1 now.2).1.thread = now.1.thread :=
        layer.inside_thread now.1 now.2
      have inner := layer.shows_inside shows
      rw [← here] at inner ⊢
      exact ih inner

/-- A body that keeps what is in scope inside the layers is all that happens there. -/
theorem runAll_moves (layers : List Snapshot) {body : Act Client α} {id : ThreadId}
    {value : α} {scene : Scene} {thread : Thread} (shows : thread.Shows scene)
    (kept : ∀ inner : Thread, inner.Shows (layers.foldl Scene.inside scene) →
      body.Moves id inner value [] inner) :
    ∃ left : Thread, left.Shows scene ∧
      (runAll layers body).Moves id thread value [] left := by
  induction layers generalizing scene thread with
  | nil => exact ⟨thread, shows, kept thread shows⟩
  | cons layer rest ih =>
      cases empty : layer.isEmpty with
      | true =>
          have none : layer.chain = [] := by simpa [isEmpty] using empty
          have same : scene.inside layer = scene := by simp [Scene.inside, empty]
          rw [List.foldl_cons, same] at kept
          obtain ⟨left, inside, moves⟩ := ih shows kept
          exact ⟨left, inside, by rwa [runAll, run_of_empty none]⟩
      | false =>
          have filled : layer.chain ≠ [] := by simpa [isEmpty] using empty
          obtain ⟨left, inside, moves⟩ := ih (layer.shows_entered empty shows) kept
          refine ⟨layer.closed thread left, layer.shows_closed empty shows inside, ?_⟩
          have silent : layer.faults thread left = [] := layer.silent empty inside thread
          have run := run_moves filled moves
          rwa [silent, List.append_nil] at run

end Snapshot

/-- Look at what is in scope. -/
def Sight.take : Act Client Sight := do
  let snapshot ← Snapshot.capture
  let thread ← Act.thread
  return ⟨snapshot, thread.current⟩

theorem Sight.take_moves (id : ThreadId) {scene : Scene} (thread : Thread)
    (shows : thread.Shows scene) :
    (take : Act Client Sight).Moves id thread ⟨⟨scene.chain⟩, scene.environment⟩ []
      thread := by
  have seen : (⟨⟨scene.chain⟩, scene.environment⟩ : Sight) =
      ⟨⟨thread.chain⟩, thread.current⟩ := by
    rw [shows.chain, funext shows.current]
  rw [seen]
  exact (Snapshot.capture_moves id thread).bind
    ((Act.thread_moves id thread).bind (Act.moves_pure _ id thread))

/-- What a body that runs inside some layers finds when it starts: in the slots the
captors of the last layers that have one, or those of the caller, and a chain to
capture which is that of the last layer with one, or that of the caller. -/
structure Snapshot.Layered (layers : List Snapshot) (context : Context)
    (process : Process Client) : Prop where
  /-- The body runs where the call does, and goes on from the state that the calls have
  led to, in which nothing but what its thread has in scope is new. -/
  body : ∀ {α : Type} (body : Act Client α),
    runAll layers body context process =
      runAll layers (fun _ _ => body (insideAll layers (context, process)).1
        (insideAll layers (context, process)).2) context process
  thread : (insideAll layers (context, process)).1.thread = context.thread
  start : ∃ inner : Thread,
    Process.Moved context.thread process (insideAll layers (context, process)).2 [] inner ∧
      (∀ type, inner.current type =
        (nearest? type layers).or ((process.thread context.thread).current type)) ∧
      (⟨inner.chain⟩ : Snapshot) =
        (lastFilled? layers).getD ⟨(process.thread context.thread).chain⟩
  /-- A body that only looks finds this, and it is what the calls end with. -/
  look : (runAll layers Sight.take context process).1 =
    .value ⟨(lastFilled? layers).getD ⟨(process.thread context.thread).chain⟩,
      fun type => (nearest? type layers).or ((process.thread context.thread).current type)⟩

theorem Snapshot.layered (layers : List Snapshot) (context : Context)
    (process : Process Client) (live : (process.thread context.thread).live) :
    Layered layers context process := by
  let scene := (process.thread context.thread).view context.thread
  have shows : (process.thread context.thread).Shows scene :=
    Thread.shows_view live context.thread
  obtain ⟨here, moved⟩ := insideAll_moved layers (context, process)
  have inner : ((insideAll layers (context, process)).2.thread context.thread).Shows
      (layers.foldl Scene.inside scene) := shows_insideAll layers shows
  have current (type : CaptorType) : (layers.foldl Scene.inside scene).environment type =
      (nearest? type layers).or ((process.thread context.thread).current type) :=
    Scene.environment_insideAll layers scene type
  have chain : (⟨(layers.foldl Scene.inside scene).chain⟩ : Snapshot) =
      (lastFilled? layers).getD ⟨(process.thread context.thread).chain⟩ :=
    Scene.chain_insideAll layers scene
  constructor
  case body =>
    intro α body
    let start := insideAll layers (context, process)
    exact runAll_congr layers (fun _ _ => body start.1 start.2) (context, process) rfl
  case thread => exact here
  case start =>
    refine ⟨_, moved, fun type => ?_, ?_⟩
    · rw [← current type]
      exact inner.current type
    · rw [← chain, ← inner.chain]
  case look =>
    obtain ⟨left, -, moves⟩ := runAll_moves layers shows (Sight.take_moves context.thread)
    rw [(moves context process rfl rfl).1, chain, funext current]
    rfl

/-! ## Towers -/

namespace Script

/-- What is at the bottom of a tower: what a callable does, with the mark of those that
are recognised as wrapped, or a future without layers. -/
inductive Core where
  | callable (recognised : Bool) (action : Action)
  | future (bare : Future)

structure Tower where
  core : Core
  layers : List Snapshot

/-- The tower that an item is, unless it is something else than a callable or a future. -/
def Item.tower? : Item → Option Tower
  | .wrapped callable => some ⟨.callable true callable.action, callable.layers⟩
  | .plain callable => some ⟨.callable false callable.action, callable.layers⟩
  | .future left => some ⟨.future left.bare, left.outer.layers⟩
  | .raw left => some ⟨.future left.bare, left.outer.layers⟩
  | _ => none

/-! ## Offers -/

/-- Wrap an item: a callable that is not recognised gets a layer with the snapshot of now,
and anything that is wrapped stays as it is. -/
def Item.wrap (once : Bool) : Item → Run Item
  | .plain callable => do
      let snapshot ← Snapshot.capture
      let identity := (← Run.session).wrapped
      Run.modify fun session => { session with wrapped := identity + 1 }
      return .wrapped ⟨identity, once, snapshot, callable.layers, callable.action⟩
  | item => return item

/-- What can be offered for wrapping. -/
inductive Offer where
  | itself (item : Item)
  | absent
  | present (offer : Offer)

namespace Offer

/-- What is absent stays absent, and what is present is wrapped where it is. -/
def wrap (once : Bool) : Offer → Run Offer
  | .itself item => return .itself (← item.wrap once)
  | .absent => return .absent
  | .present offer => return .present (← offer.wrap once)

def item? : Offer → Option Item
  | .itself item => some item
  | .absent => none
  | .present offer => offer.item?

/-- An item inside a number of options. -/
def inside : Nat → Item → Offer
  | 0, item => .itself item
  | options + 1, item => .present (inside options item)

theorem item?_inside (options : Nat) (item : Item) : (inside options item).item? = some item := by
  induction options with
  | zero => rfl
  | succ options ih => exact ih

/-- Options make no difference to what is inside them. -/
theorem wrap_inside (once : Bool) (options : Nat) (item : Item) :
    (inside options item).wrap once = (do return inside options (← item.wrap once)) := by
  induction options with
  | zero => rfl
  | succ options ih => simp only [inside, wrap, ih, bind_assoc, pure_bind]

end Offer

/-! ## Re-wrapping -/

/-- What can be done to something that may be wrapped. -/
inductive Rewrapping where
  /-- Wrap it, inside a number of options. -/
  | wrap (options : Nat)
  /-- Make a plain callable of it, which is no longer recognised. -/
  | becomePlain
  /-- Take its wrapping off. -/
  | unwrap
  | wrapFuture
deriving DecidableEq, Repr

namespace Rewrapping

/-- What a re-wrapping makes of an item that it fits; others stay as they are. -/
def act : Rewrapping → Item → Run Item
  | .wrap options, item => do
      let wrapped ← (Offer.inside options item).wrap true
      return wrapped.item?.getD item
  | .becomePlain, .wrapped callable => return .plain ⟨callable.layers, callable.action⟩
  | .unwrap, .wrapped callable => do
      callable.snapshot.drop
      return .plain ⟨callable.inner, callable.action⟩
  | .unwrap, .future left => do
      left.snapshot.drop
      return .raw left.unwrapped
  | .unwrap, .raw left => do
      left.snapshot.drop
      return .raw left.unwrapped
  | .wrapFuture, .future left => return .future (left.wrapIn (← Snapshot.capture))
  | .wrapFuture, .raw left => return .future (left.wrapIn (← Snapshot.capture))
  | _, item => return item

/-- The step of a script for a re-wrapping. -/
def step (register name : String) : Rewrapping → ItemStep
  | .wrap _ => .rewrap register name
  | .becomePlain => .intoPlain register name
  | .unwrap => .unwrap register name
  | .wrapFuture => .wrapFuture register name

/-- Whether the step takes an item out of its register. -/
def fits : Rewrapping → Item → Bool
  | .wrap _ => ItemStep.canRewrap
  | .becomePlain => ItemStep.canBecomePlain
  | .unwrap => ItemStep.canUnwrap
  | .wrapFuture => ItemStep.canWrapFuture

theorem act_wrap (options : Nat) (item : Item) :
    (wrap options).act item = item.wrap true := by
  simp only [act, Offer.wrap_inside, bind_assoc, pure_bind, Offer.item?_inside,
    Option.getD_some, bind_pure]

end Rewrapping

/-- Only what is done to items that fit makes a difference. -/
theorem taking_congr {place : Place} {register : String} {fits : Item → Bool}
    {next other : Item → Run Value} (same : ∀ item, fits item = true → next item = other item) :
    taking place register fits next = taking place register fits other := by
  unfold taking
  refine congrArg (Run.item? register >>= ·) (funext fun found => ?_)
  cases found with
  | none => rfl
  | some item =>
      by_cases fit : fits item = true
      · cases item <;> simp only [fit, same _ fit]
      · simp only [if_neg fit]

/-- Re-wrap an item, and put what comes of it into a register. -/
def Rewrapping.binding (rewrapping : Rewrapping) (name : String) (item : Item) : Run Value := do
  let built ← rewrapping.act item
  ItemStep.bindNull name built

/-- The steps of a script re-wrap what they take out of a register. -/
theorem Rewrapping.run_step (rewrapping : Rewrapping) (place : Place) (register name : String) :
    (rewrapping.step register name).run place =
      taking place register rewrapping.fits (rewrapping.binding name) := by
  cases rewrapping with
  | wrap options =>
      refine taking_congr fun item fit => ?_
      rw [binding, act_wrap]
      cases item <;> rfl
  | becomePlain =>
      refine taking_congr fun item fit => ?_
      cases item <;> rfl
  | unwrap =>
      refine taking_congr fun item fit => ?_
      cases item with
      | raw left => cases fit
      | _ => rfl
  | wrapFuture =>
      refine taking_congr fun item fit => ?_
      cases item <;> rfl

/-- A callable is first wrapped as if it had been plain, without any layer. -/
theorem bindWrapped_eq (name : String) (once : Bool) (action : Action) :
    bindWrapped name once action = (do
      let built ← Item.wrap once (.plain ⟨[], action⟩)
      ItemStep.bindNull name built) :=
  rfl

/-- A future is first wrapped as one without any layer. -/
theorem runFuture_eq (name : String) (body : List Step) :
    runFuture name body =
      Rewrapping.wrapFuture.binding name (.raw (Future.ofSteps false .empty body).bare) :=
  rfl

/-- What a re-wrapping makes of a tower at a moment with a snapshot.  A callable that is
recognised is wrapped already, and so is a future with layers. -/
def Tower.after (snapshot : Snapshot) : Rewrapping → Tower → Tower
  | .wrap _, ⟨.callable false action, layers⟩ => ⟨.callable true action, snapshot :: layers⟩
  | .becomePlain, ⟨.callable true action, layers⟩ => ⟨.callable false action, layers⟩
  | .unwrap, ⟨.callable true action, layers⟩ => ⟨.callable false action, layers.tail⟩
  | .unwrap, ⟨.future bare, layers⟩ => ⟨.future bare, layers.tail⟩
  | .wrapFuture, ⟨.future bare, layers⟩ => ⟨.future bare, snapshot :: layers⟩
  | _, tower => tower

/-- The snapshot that a capture would take at a moment. -/
def Moment.snapshot (now : Moment) : Snapshot :=
  ⟨(now.2.thread now.1.thread).chain⟩

/-- A re-wrapping always succeeds, and makes of the tower what is expected. -/
theorem Rewrapping.act_value (rewrapping : Rewrapping) {item : Item} {tower : Tower}
    (built : item.tower? = some tower) (now : Moment) :
    ∃ next, (rewrapping.act item now.1 now.2).1 = .value next ∧
      next.tower? = some (tower.after now.snapshot rewrapping) := by
  cases rewrapping with
  | wrap options =>
      rw [act_wrap]
      cases item <;> cases built <;> exact ⟨_, rfl, rfl⟩
  | becomePlain => cases item <;> cases built <;> exact ⟨_, rfl, rfl⟩
  | unwrap => cases item <;> cases built <;> exact ⟨_, rfl, rfl⟩
  | wrapFuture => cases item <;> cases built <;> exact ⟨_, rfl, rfl⟩

/-- What comes of an item by re-wrappings, each at a moment of its own. -/
def Item.rewrapped : List (Rewrapping × Moment) → Outcome Item → Outcome Item
  | (rewrapping, now) :: rest, .value item =>
      rewrapped rest (rewrapping.act item now.1 now.2).1
  | _, outcome => outcome

/-- What comes of a tower by re-wrappings. -/
def Tower.rewrapped (tower : Tower) (handlings : List (Rewrapping × Moment)) : Tower :=
  handlings.foldl (fun tower handling => tower.after handling.2.snapshot handling.1) tower

theorem Item.rewrapped_value {item : Item} {tower : Tower}
    (built : item.tower? = some tower) (handlings : List (Rewrapping × Moment)) :
    ∃ last, rewrapped handlings (.value item) = .value last ∧
      last.tower? = some (tower.rewrapped handlings) := by
  induction handlings generalizing item tower with
  | nil => exact ⟨item, rfl, built⟩
  | cons handling rest ih =>
      obtain ⟨rewrapping, now⟩ := handling
      obtain ⟨next, outcome, raised⟩ := rewrapping.act_value built now
      obtain ⟨last, arrives, grown⟩ := ih raised
      refine ⟨last, ?_, grown⟩
      rw [rewrapped, outcome]
      exact arrives

/-! ## Running a tower -/

/-- However an item that is a tower is run, what it does takes place inside its layers. -/
structure Item.RunsInside (item : Item) (tower : Tower) : Prop where
  /-- A callable that is called for the last time. -/
  once : ∀ recognised action, tower.core = .callable recognised action →
    ∀ interpreter place argument,
      InvokeStep.runCallOnce interpreter place argument item =
        (Snapshot.runAll tower.layers (action.run interpreter place argument)).ensuring
          (Snapshot.dropAll tower.layers)
  /-- A callable that its owner can call again. -/
  again : ∀ callable, item = .wrapped callable → ∀ interpreter place register,
    InvokeStep.runCallAgain interpreter place register item = (do
      let outcome ← Act.attempt
        (Snapshot.runAll tower.layers (callable.action.run interpreter place .null))
      Run.bind register (.wrapped (callable.again?.getD callable))
      Act.conclude outcome)
  /-- A callable that is called where it is, unless this needs its owner. -/
  shared : ∀ callable, item = .wrapped callable → callable.once = false →
    (∀ calls steps, callable.action ≠ .counter calls steps) →
    ∀ interpreter place register argument body context process,
      process.client.registers.find? register = some item →
        runCall interpreter place register argument body context process =
          keeping tower.layers (Snapshot.runAll tower.layers
            (callable.action.run interpreter (place.calling callable) argument)) context process
  /-- A future that is awaited. -/
  awaited : ∀ left, item = .future left ∨ item = .raw left → ∀ interpreter place,
    pollInside interpreter place left =
      Snapshot.runAll tower.layers (advance interpreter place left)
  /-- A future that is polled by its name. -/
  polled : ∀ left, item = .future left → ∀ interpreter place name home context process taken,
    FutureHome.take? name context process = (.value (some (home, left)), taken) →
      pollOnce interpreter place name context process = (do
        Run.modify fun session => { session with suspended := none }
        let outcome ← Act.attempt
          (Snapshot.runAll tower.layers (polling interpreter place left))
        settling home name left
        Act.conclude outcome) context taken

theorem Item.runsInside {item : Item} {tower : Tower} (built : item.tower? = some tower) :
    item.RunsInside tower := by
  constructor
  case once =>
    intro recognised action core interpreter place argument
    cases item <;> cases built <;> cases core <;> rfl
  case again =>
    rintro callable rfl interpreter place register
    cases built
    rfl
  case shared =>
    rintro callable rfl own plain interpreter place register argument body context process found
    cases built
    simp only [runCall, Run.item?, Run.session, Act.bind_apply, Act.client, Act.pure_apply,
      found, own]
    cases action : callable.action with
    | counter calls steps => exact absurd action (plain calls steps)
    | _ => rfl
  case awaited =>
    rintro left (rfl | rfl) interpreter place
    · cases built
      rfl
    · cases built
      rfl
  case polled =>
    rintro left rfl interpreter place name home context process taken found
    cases built
    rw [pollOnce, Act.bind_apply, found]
    simp only [settling_conclude]
    rfl

/-- Layers of snapshots compose, and the inner ones win.  A body that runs inside any
snapshots on a live thread finds of every type the captor of the last layer that has
one, or else that of its caller, and captures the last layer that is not empty, or
else the chain of its caller.  Whatever is built by wrapping something over and over,
each time at any moment, is run as such a body: wrapping it in any number of options
changes nothing if it is recognised as wrapped, and adds a layer with the snapshot of
that moment if it has been made plain, as wrapping a future always does, and taking
the wrapping off removes the outermost layer.  These are the steps of a script that
wrap, re-wrap and run. -/
theorem Tower.inner_layers_win :
    (∀ {Client : Type} (layers : List Snapshot) (context : Context) (process : Process Client),
      (process.thread context.thread).live → Snapshot.Layered layers context process) ∧
    (∀ (item : Item) (tower : Tower) (handlings : List (Rewrapping × Moment)),
      item.tower? = some tower →
        ∃ last, Item.rewrapped handlings (.value item) = .value last ∧
          last.tower? = some (tower.rewrapped handlings) ∧
          last.RunsInside (tower.rewrapped handlings)) ∧
    (∀ (rewrapping : Rewrapping) (place : Place) (register name : String),
      (rewrapping.step register name).run place =
        taking place register rewrapping.fits (rewrapping.binding name)) ∧
    (∀ (name : String) (once : Bool) (action : Action),
      bindWrapped name once action = (do
        let built ← Item.wrap once (.plain ⟨[], action⟩)
        ItemStep.bindNull name built)) ∧
    ∀ (name : String) (body : List Step),
      runFuture name body =
        Rewrapping.wrapFuture.binding name (.raw (Future.ofSteps false .empty body).bare) := by
  constructor
  · intro Client layers context process live
    exact Snapshot.layered layers context process live
  constructor
  · intro item tower handlings built
    obtain ⟨last, arrives, grown⟩ := Item.rewrapped_value built handlings
    exact ⟨last, arrives, grown, last.runsInside grown⟩
  exact ⟨Rewrapping.run_step, bindWrapped_eq, runFuture_eq⟩

/-- A callable is wrapped where a log and a counter are in scope, made plain, wrapped
inside two options where there is another log, and wrapped again where there is nothing.
It runs inside two layers, with the inner log in scope, the counter, and what its
caller has of another type. -/
theorem Tower.inner_layers_win_twice_wrapped :
    let log : CaptorType := ⟨"Log"⟩
    let count : CaptorType := ⟨"Count"⟩
    let trace : CaptorType := ⟨"Trace"⟩
    let context : Context := ⟨.debug, .main, false, []⟩
    let inner : Snapshot := ⟨[⟨⟨.main, 1⟩, log, "inner log"⟩, ⟨⟨.main, 0⟩, count, "counter"⟩]⟩
    let outer : Snapshot := ⟨[⟨⟨.main, 2⟩, log, "outer log"⟩]⟩
    let now (snapshot : Snapshot) : Moment := (context,
      (Process.start Session.start).setThread .main (Thread.fresh.setChain snapshot.chain))
    let caller : Process Session := (Process.start Session.start).setThread .main
      ((Thread.fresh.setCurrent trace (some "tracer")).setCurrent log (some "hidden"))
    let handlings : List (Rewrapping × Moment) := [(.wrap 0, now inner), (.becomePlain, now outer),
      (.wrap 2, now outer), (.wrap 1, now .empty)]
    ∃ last, Item.rewrapped handlings (.value (.plain ⟨[], .pointer⟩)) = .value last ∧
      last.tower? = some ⟨.callable true .pointer, [outer, inner]⟩ ∧
      ∃ sight, (Snapshot.runAll [outer, inner] Sight.take context caller).1 = .value sight ∧
        sight.snapshot = inner ∧ sight.current log = some "inner log" ∧
        sight.current count = some "counter" ∧ sight.current trace = some "tracer" := by
  intro log count trace context inner outer now caller handlings
  have live : (caller.thread context.thread).live := by decide
  obtain ⟨last, arrives, grown, -⟩ :=
    Tower.inner_layers_win.2.1 (.plain ⟨[], .pointer⟩) _ handlings rfl
  refine ⟨last, arrives, grown, _,
    (Tower.inner_layers_win.1 [outer, inner] context caller live).look, ?_⟩
  decide

end Script

end Ambient
