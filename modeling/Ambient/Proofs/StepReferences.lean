import Ambient.Proofs.PollReferences
import Ambient.Script.Program

/-!
# Steps leave what they are given

Whatever a step takes over from a register it puts into another one or gives up, and what
it starts it ends or names.  So a step leaves to those around it what they have given it,
whether it ends with a value or with a panic.
-/

namespace Ambient.Script

variable {α β : Type} {id : ThreadId} {given rest : List Chain} {final : Claim}

namespace Neutral

variable {act : Run α} {next : α → Run β}

theorem value (value : α) : Neutral id (pure value : Run α) :=
  fun _ => .keep value

theorem raise (panic : Panic) : Neutral id (Act.raise panic : Run α) :=
  fun _ => .raise fun _ _ known => known

theorem bind (first : Neutral id act) (rest : ∀ value, Neutral id (next value)) :
    Neutral id (act >>= next) :=
  fun given => (first given).bind fun value => rest value given

theorem attempt (neutral : Neutral id act) : Neutral id (Act.attempt act) :=
  fun given => (neutral given).attempt

theorem holding (captors : List CaptorId) (neutral : Neutral id act) :
    Neutral id (Act.holding captors act) :=
  fun given => (neutral given).holding captors

theorem reading {next : Session → Run β} (rest : ∀ session, Neutral id (next session)) :
    Neutral id (Run.session >>= next) :=
  fun given => .reading fun session _ => .forget session (rest session given)

theorem item? {register : String} {next : Option Item → Run β}
    (rest : ∀ found, Neutral id (next found)) : Neutral id (Run.item? register >>= next) :=
  reading fun session => rest (session.registers.find? register)

theorem current (type : CaptorType) : Neutral id (Act.current type) :=
  fun _ => .current type

/-- What has no references may change. -/
theorem modifying {change : Session → Session} {next : Unit → Run β}
    (same : ∀ session : Session, session.Untouched (change session))
    (calm : ∀ session, (change session).suspended = session.suspended)
    (rest : Neutral id (next ())) : Neutral id (Run.modify change >>= next) :=
  fun given => Transfers.bind
    (.untouched same fun session _ known => ⟨(calm session).trans known.1, known.2⟩)
    fun _ => rest given

theorem dispatch (type : CaptorType) {handler : CaptorId → Run α}
    (neutral : ∀ captor, Neutral id (handler captor)) : Neutral id (Act.dispatch type handler) := by
  refine (current type).bind fun found => ?_
  cases found with
  | none => exact .value none
  | some captor => exact ((neutral captor).holding [captor]).bind fun answer => .value _

end Neutral

namespace Interpreter.Careful

variable {interpreter : Interpreter} (careful : interpreter.Careful)
include careful

theorem steps (place : Place) (body : List Step) (index : Nat) (value : Value) :
    Neutral id (interpreter.steps place index value body) := by
  induction body generalizing index value with
  | nil => exact .value value
  | cons step rest ih => exact (careful.step id _ step).bind fun value => ih (index + 1) value

theorem body (place : Place) (body : List Step) : Neutral id (interpreter.body place body) :=
  careful.steps place body 0 .null

end Interpreter.Careful

/-! ## Messages -/

theorem receive_neutral (captor : CaptorId) (message : Value) :
    Neutral id (Run.receive captor message) := by
  refine .reading fun session => ?_
  cases session.receivers.find? captor with
  | none => exact .value _
  | some receiver =>
      dsimp only
      split
      · refine .modifying (fun _ => ⟨rfl, rfl, rfl, rfl, Nat.le_refl _, List.Subset.refl _⟩)
          (fun _ => rfl) ?_
        exact Neutral.bind (fun _ => .note _ fun _ _ calm => calm) fun _ => .value _
      · exact .value _

section

variable {interpreter : Interpreter} (careful : interpreter.Careful)
include careful

theorem deliver_neutral (place : Place) (captor : CaptorId) (message : Value) :
    Neutral id (interpreter.deliver place captor message) := by
  refine (receive_neutral captor message).bind fun received => ?_
  cases received with
  | error error => exact .value _
  | ok receiver => exact (careful.body place receiver.onMessage).bind fun _ => .value _

theorem emit_neutral (place : Place) (channel : Channel) (message : Value) :
    Neutral id (interpreter.emit place channel message) :=
  (Neutral.dispatch _ fun captor => deliver_neutral careful place captor message).bind
    fun _ => .value _

end

theorem withChannel_neutral (label : String) {next : Channel → Run Value}
    (rest : ∀ channel, Neutral id (next channel)) : Neutral id (withChannel label next) := by
  unfold withChannel
  cases Channel.ofLabel? label with
  | none => exact .value _
  | some channel => exact rest channel

/-! ## Captors -/

/-- Looking changes nothing. -/
theorem alive_neutral : Neutral id Run.alive :=
  fun _ => .of_value (fun _ _ => rfl) fun _ process _ _ holds => ⟨.refl process, holds⟩

theorem runRelease_neutral (name : String) : Neutral id (CaptorStep.runRelease name) := by
  intro rest
  refine Transfers.futures fun session neat => ?_
  cases found : (session.futuresOf id).find? name with
  | some future =>
      have removes : Transfers id (Run.removeFuture name) ((Calm rest).at session)
          (fun _ => Calm (future.references ++ rest)) (Calm rest) :=
        .removeFuture neat found fun calm => calm
      exact removes.bind fun _ => (Exchanges.dropFuture future).bind fun _ => .keep _
  | none =>
      refine .forget session (Transfers.item? fun session item _ known => ?_)
      cases item with
      | none => exact .forget session (.keep _)
      | some item =>
          exact (Transfers.unbind known).bind fun _ => (Transfers.drop item).bind fun _ => .keep _

theorem CaptorStep.run_neutral {interpreter : Interpreter} (careful : interpreter.Careful)
    (place : Place) (step : CaptorStep) : Neutral id (step.run interpreter place) := by
  cases step with
  | release register => exact runRelease_neutral register
  | alive => exact alive_neutral.bind fun _ => .value _
  | current type =>
      exact withChannel_neutral type fun channel => (Neutral.current _).bind fun _ => .value _
  | emit type message =>
      exact withChannel_neutral type fun channel => emit_neutral careful place channel message
  | hoist type name =>
      refine withChannel_neutral type fun channel => (Neutral.current _).bind fun found => ?_
      cases found with
      | none => exact .value _
      | some captor =>
          exact Neutral.bind (fun _ => .bindItem name trivial) fun _ => .value _
  | emitTo register message =>
      refine Neutral.item? fun found => ?_
      split
      · exact (deliver_neutral careful place _ message).holding _
      · exact .value _

theorem makeCaptor_neutral (name type manner : String) (onMessage : List Step) :
    Neutral id (makeCaptor name type manner onMessage) := by
  refine .reading fun session => ?_
  split
  · exact .value _
  · refine withChannel_neutral type fun channel => ?_
    refine .modifying (fun _ => ⟨rfl, rfl, rfl, rfl, Nat.le_refl _, List.Subset.refl _⟩)
      (fun _ => rfl) ?_
    exact Neutral.bind (fun _ => .bindItem name trivial) fun _ => .value _

/-! ## Handles -/

theorem withStarting_neutral (kind register : String) {next : Run Handle → Run Value}
    (rest : ∀ opening : Opening, Neutral id (next opening.start)) :
    Neutral id (withStarting kind register next) := by
  intro given
  unfold withStarting
  cases HandleKind.ofName? kind with
  | none => exact .keep _
  | some kind =>
      refine Transfers.starting fun found opens => ?_
      cases found with
      | none => exact .keep _
      | some starting =>
          obtain ⟨opening, rfl⟩ := opens starting rfl
          exact rest opening given

theorem runScope_neutral (kind register : String) {body : Run Value} (neutral : Neutral id body) :
    Neutral id (runScope kind register body) :=
  withStarting_neutral kind register fun opening _ =>
    (Transfers.start opening).bind fun handle =>
      Exchanges.ensuring ((neutral _).holding handle.captors) (Exchanges.finish handle)

theorem startPile_transfers (opening : Opening) (count : Nat) (pile : List Handle) :
    Transfers id (startPile opening.start count pile)
      (Calm (pile.flatMap Handle.references ++ given))
      (fun pile => Calm (pile.flatMap Handle.references ++ given)) final := by
  induction count generalizing pile with
  | zero => exact .pure fun _ _ known => known
  | succ count ih =>
      refine (Transfers.start opening).bind fun handle => ?_
      rw [← List.append_assoc, ← List.flatMap_cons]
      exact ih (handle :: pile)

theorem runDeep_neutral (count : Nat) (kind register : String) {body : Run Value}
    (neutral : Neutral id body) : Neutral id (runDeep count kind register body) := by
  refine withStarting_neutral kind register fun opening given => ?_
  refine (startPile_transfers opening count []).bind fun pile => ?_
  exact (((neutral _).holding _).onPanic (Exchanges.finishReversed pile)).bind fun value =>
    (Exchanges.finishStack pile).bind fun _ => .keep value

/-- A handle gets a name that has none yet. -/
theorem naming_transfers (name : String) {handle : Handle} :
    Transfers id (Run.handles >>= fun named => Run.setHandles ((name, handle) :: named))
      (Given (fun session => session.Calm ∧ (session.handlesOf id).lookup name = none)
        (handle.references ++ given)) (fun _ => Calm given) final := by
  refine Transfers.handles fun session neat => ?_
  refine .of_fact (fun _ _ known => known.1 ▸ known.2.1.2) fun unnamed => ?_
  refine Transfers.of_start (Transfers.setHandles ?_ ?_ fun calm => calm)
    fun _ _ known => ⟨known.1, known.2.1.1, known.2.2⟩
  · rw [List.map_cons, List.nodup_cons]
    refine ⟨fun member => ?_, neat.handlesOf id⟩
    obtain ⟨entry, member, same⟩ := List.mem_map.mp member
    exact absurd (List.lookup_eq_none_iff.mp unnamed entry member) (by simp [same])
  · rw [← List.append_assoc]
    exact List.perm_append_comm.append_right given

theorem HandleStep.run_neutral (step : HandleStep) : Neutral id step.run := by
  intro given
  cases step with
  | start kind name register =>
      refine Transfers.handle? fun session found neat known => ?_
      cases found with
      | some handle => exact .forget session (.keep _)
      | none =>
          let unnamed (session : Session) : Prop :=
            session.Calm ∧ (session.handlesOf id).lookup name = none
          refine Transfers.of_start (?_ : Transfers id _ (Given unnamed given) _ _)
            fun _ _ fact => ⟨⟨fact.2.1, fact.1 ▸ known⟩, fact.2.2⟩
          refine Transfers.starting fun found opens => ?_
          cases found with
          | none => exact .pure fun _ _ fact => ⟨fact.1.1, fact.2⟩
          | some starting =>
              obtain ⟨opening, rfl⟩ := opens starting rfl
              exact (Transfers.start opening).bind fun handle =>
                (naming_transfers name).bind fun _ => .keep _
  | finish name =>
      refine Transfers.handle? fun session found neat known => ?_
      cases found with
      | none => exact .forget session (.keep _)
      | some handle =>
          exact (Transfers.removeHandle neat known).bind fun _ =>
            (Exchanges.finish handle).bind fun _ => .keep _
  | forget name =>
      refine Transfers.handle? fun session found neat known => ?_
      cases found with
      | none => exact .forget session (.keep _)
      | some handle =>
          refine (Transfers.removeHandle neat known).bind fun _ => ?_
          refine Transfers.bind (.modify ?_) fun _ => .keep _
          rintro session own neat ⟨calm, order⟩
          refine ⟨⟨neat.registers, neat.items, neat.handles, neat.named, neat.futures, neat.kept⟩,
            ⟨Nat.le_refl _, List.Subset.refl _, fun _ _ => rfl, fun _ _ => rfl⟩, given,
            ⟨calm, .refl _⟩, ?_⟩
          have forgotten := (session.references_forget handle).symm.append_right given
          rw [List.append_assoc] at forgotten
          exact (order.append_left _).trans
            ((List.perm_append_comm_assoc _ _ _).trans forgotten)
  | inspect name pretty =>
      refine Transfers.handle? fun session found neat known => .forget session ?_
      cases found with
      | none => exact .keep _
      | some handle => exact .keep _

/-! ## Items -/

theorem Transfers.buildPoint :
    Transfers id EntryPoint.build (Calm given) (fun point => Calm (point.snapshot.chain :: given))
      final :=
  Transfers.capture.bind fun _ => .pure fun _ _ known => known

/-- Counting what is wrapped changes nothing that has references. -/
theorem Transfers.numbering {count : Nat} {next : Unit → Run β} {last : β → Claim}
    (rest : Transfers id (next ()) (Calm given) last final) :
    Transfers id ((Run.modify fun session => { session with wrapped := count }) >>= next)
      (Calm given) last final :=
  .bind (.untouched (fun _ => ⟨rfl, rfl, rfl, rfl, Nat.le_refl _, List.Subset.refl _⟩)
    fun _ _ known => known) fun _ => rest

namespace ItemStep

theorem bindNull_transfers (name : String) {item : Item} (fine : item.Balanced) :
    Transfers id (bindNull name item) (Calm (item.references ++ given))
      (fun _ => Calm given) final :=
  (Transfers.bindItem name fine).bind fun _ => .keep _

theorem runRewrap_transfers (name : String) {item : Item} (fine : item.Balanced) :
    Transfers id (runRewrap name item) (Calm (item.references ++ given)) (fun _ => Calm given)
      final := by
  cases item with
  | plain callable =>
      refine Transfers.capture.bind fun taken => .reading fun session _ => .forget session ?_
      exact .numbering (bindNull_transfers name trivial)
  | _ => exact bindNull_transfers name fine

theorem runIntoPlain_transfers (name : String) {item : Item} (fine : item.Balanced) :
    Transfers id (runIntoPlain name item) (Calm (item.references ++ given)) (fun _ => Calm given)
      final := by
  cases item with
  | wrapped callable => exact bindNull_transfers name trivial
  | _ => exact bindNull_transfers name fine

theorem runUnwrap_transfers (name : String) {item : Item} (fine : item.Balanced) :
    Transfers id (runUnwrap name item) (Calm (item.references ++ given)) (fun _ => Calm given)
      final := by
  cases item with
  | wrapped callable =>
      exact (Transfers.release callable.snapshot.chain).bind fun _ =>
        bindNull_transfers name trivial
  | future left =>
      obtain ⟨⟨layers, rest, value, held⟩, awaited⟩ := left
      have inner : Future.Balanced false ⟨⟨layers.tail, rest, value, held⟩, awaited⟩ :=
        ⟨fine.outer, fine.awaited⟩
      cases layers with
      | nil => exact .blank ((Transfers.release []).bind fun _ => bindNull_transfers name inner)
      | cons layer layers =>
          exact (Transfers.release layer.chain).bind fun _ => bindNull_transfers name inner
  | _ => exact bindNull_transfers name fine

theorem runWrapFuture_transfers (name : String) {item : Item} (fine : item.Balanced) :
    Transfers id (runWrapFuture name item) (Calm (item.references ++ given)) (fun _ => Calm given)
      final := by
  have wraps (left : Future) (balanced : left.Balanced false) : Transfers id
      (Snapshot.capture >>= fun taken => bindNull name (.future (left.wrapIn taken)))
      (Calm (left.snapshots.map Snapshot.chain ++ given)) (fun _ => Calm given) final :=
    Transfers.capture.bind fun taken => bindNull_transfers name ⟨balanced.outer, balanced.awaited⟩
  cases item with
  | future left => exact wraps left fine
  | raw left => exact wraps left fine
  | _ => exact bindNull_transfers name fine

theorem runLook_neutral (register : String) (pretty : Bool) :
    Neutral id (runLook register pretty) := by
  intro given
  refine Transfers.futures fun session _ => .forget session ?_
  cases (session.futuresOf id).find? register with
  | some future => exact .keep _
  | none =>
      refine Neutral.item? (fun found => ?_) given
      cases found with
      | none => exact .value _
      | some item => exact .value _

theorem run_neutral (place : Place) (step : ItemStep) : Neutral id (step.run place) := by
  intro given
  cases step with
  | bridge type name =>
      simp only [run]
      split
      · exact .keep _
      · exact (Transfers.buildBridge _).bind fun built =>
          Transfers.bind (.bindItem name trivial) fun _ => .keep _
  | bridgeFrom handle name =>
      refine Transfers.handle? fun session found _ _ => .forget session ?_
      split
      · split
        · exact bindNull_transfers name trivial
        · exact .keep _
      · exact .keep _
  | snapshot name => exact Transfers.capture.bind fun taken => bindNull_transfers name trivial
  | emptySnapshot name => exact .blank (bindNull_transfers name trivial)
  | point name => exact Transfers.buildPoint.bind fun point => bindNull_transfers name trivial
  | emptyPoint name => exact .blank (bindNull_transfers name trivial)
  | snapshotOf register name =>
      refine Transfers.item? fun session found _ known => ?_
      split
      · exact .forget session (.keep _)
      · rename_i taken shows
        obtain ⟨item, rfl, shows⟩ := Option.bind_eq_some_iff.mp shows
        have holds : Transfers id (Act.hold taken.chain) ((Calm given).at session) _ (Calm given) :=
          .hold ((item.snapshot?_mem shows).imp_right (Session.item_mem known))
        have binds : Transfers id (bindNull name (.snapshot taken)) (Calm (taken.chain :: given)) _
            (Calm given) := bindNull_transfers name trivial
        exact holds.bind fun _ => .forget session binds
  | equal left right =>
      refine Neutral.item? (fun first => Neutral.item? fun second => ?_) given
      split <;> exact .value _
  | look register pretty => exact runLook_neutral register pretty given
  | clone register name =>
      refine Transfers.item? fun session found neat known => ?_
      cases found with
      | none => exact .forget session (.keep _)
      | some item =>
          dsimp only
          split
          · have holds : Transfers id item.hold ((Calm given).at session) _ (Calm given) :=
              .holdAll fun snapshot member =>
                Session.item_mem known (List.mem_map_of_mem member)
            exact holds.bind fun _ => .forget session (bindNull_transfers name (neat.item known))
          · exact .forget session (.keep _)
  | rewrap register name =>
      exact Exchanges.taking place fun item fine _ => runRewrap_transfers name fine
  | intoPlain register name =>
      exact Exchanges.taking place fun item fine _ => runIntoPlain_transfers name fine
  | unwrap register name =>
      exact Exchanges.taking place fun item fine _ => runUnwrap_transfers name fine
  | wrapFuture register name =>
      exact Exchanges.taking place fun item fine _ => runWrapFuture_transfers name fine

end ItemStep

/-! ## Calls -/

/-- A callable that has been called keeps its layers. -/
theorem Wrapped.layers_again (callable : Wrapped) :
    (callable.again?.getD callable).layers = callable.layers := by
  unfold Wrapped.again?
  split
  · rfl
  · split <;> rfl

theorem bindWrapped_neutral (name : String) (once : Bool) (action : Action) :
    Neutral id (bindWrapped name once action) := by
  intro given
  refine Transfers.capture.bind fun taken => .reading fun session _ => .forget session ?_
  refine .numbering (.bind (.bindItem name ?_) fun _ => .keep _)
  exact trivial

theorem runWrap_neutral (name kind : String) (body : List Step) :
    Neutral id (runWrap name kind body) := by
  unfold runWrap
  split
  case h_7 => exact .value _
  case h_8 => exact .value _
  all_goals exact bindWrapped_neutral name _ _

theorem Action.run_neutral {interpreter : Interpreter} (careful : interpreter.Careful)
    (place : Place) (argument : Value) (action : Action) :
    Neutral id (action.run interpreter place argument) := by
  cases action with
  | thunk body => exact careful.body place body
  | function body => exact (careful.body place body).bind fun _ => .value _
  | counter calls body => exact (careful.body place body).bind fun _ => .value _
  | pointer => exact (emit_neutral careful place .text _).bind fun _ => .value _

/-- A body may be called inside any snapshots that are referred to meanwhile. -/
theorem Neutral.insideAll {body : Run Value} (neutral : Neutral id body)
    (snapshots : List Snapshot) (rest : List Chain) :
    Exchanges Session.Calm id (Snapshot.runAll snapshots body)
      (snapshots.map Snapshot.chain ++ rest)
      (fun _ => snapshots.map Snapshot.chain ++ rest) (snapshots.map Snapshot.chain ++ rest) :=
  Transfers.insideAll (neutral _) (fun _ member _ _ known => .inr <|
    known.2.mem_iff.mpr (List.mem_append_left _ (List.mem_map_of_mem member)))
    fun _ _ _ known => known

theorem keeping_transfers {snapshots : List Snapshot} {session : Session} {body : Run Value}
    (has : ∀ snapshot ∈ snapshots, snapshot.chain ∈ session.references)
    (exchanges : Exchanges Session.Calm id body (snapshots.map Snapshot.chain ++ given)
      (fun _ => snapshots.map Snapshot.chain ++ given) (snapshots.map Snapshot.chain ++ given)) :
    Transfers id (keeping snapshots body) ((Calm given).at session) (fun _ => Calm given)
      (Calm given) := by
  have drops : Transfers id (Snapshot.dropAll snapshots)
      (Calm (snapshots.map Snapshot.chain ++ given))
      (fun _ => Calm given) (Calm given) := .dropAll snapshots
  exact (Transfers.holdAll has).bind fun _ => .forget session (exchanges.ensuring drops)

section

variable {interpreter : Interpreter} (careful : interpreter.Careful)
include careful

theorem runCall_neutral (place : Place) (register : String) (argument : Value)
    (body : List Step) : Neutral id (runCall interpreter place register argument body) := by
  intro given
  refine Transfers.item? fun session found _ known => ?_
  have calls (snapshots : List Snapshot) {body : Run Value} (neutral : Neutral id body)
      (has : ∀ snapshot ∈ snapshots, snapshot.chain ∈ session.references) :
      Transfers id (keeping snapshots (Snapshot.runAll snapshots body)) ((Calm given).at session)
        (fun _ => Calm given) (Calm given) :=
    keeping_transfers has (neutral.insideAll snapshots given)
  split
  · rename_i taken
    exact calls [taken] (careful.body place body) (List.forall_mem_singleton.mpr
      (Session.item_mem known (.head _)))
  · rename_i point
    exact calls [point.snapshot] (careful.body place body) (List.forall_mem_singleton.mpr
      (Session.item_mem known (.head _)))
  · rename_i callable
    dsimp only
    split
    · exact .forget session (.keep _)
    · split
      · exact .forget session (.keep _)
      · exact calls callable.layers (callable.action.run_neutral careful _ argument)
          fun layer member => Session.item_mem known (List.mem_map_of_mem member)
  · exact .forget session (.keep _)

namespace InvokeStep

theorem runCallAgain_exchanges (place : Place) (register : String) (item : Item)
    (fits : canCallAgain item = true) :
    Exchanges Session.Calm id (runCallAgain interpreter place register item)
      (item.references ++ given)
      (fun _ => given) given := by
  cases item with
  | wrapped callable =>
      have calls : Exchanges Session.Calm id
          (callLayers interpreter place callable.layers .null callable.action)
          (callable.layers.map Snapshot.chain ++ given) _ _ :=
        (callable.action.run_neutral careful place .null).insideAll callable.layers given
      have same := callable.layers_again
      have puts : Transfers id (Run.bind register (.wrapped (callable.again?.getD callable)))
          (Calm ((callable.again?.getD callable).layers.map Snapshot.chain ++ given))
          (fun _ => Calm given) (Calm given) := .bindItem register trivial
      rw [same] at puts
      exact calls.attempt.bind fun outcome => puts.bind fun _ => .conclude outcome
  | _ => contradiction

theorem runCallOnce_exchanges (place : Place) (argument : Value) (item : Item)
    (fits : canCallOnce item = true) :
    Exchanges Session.Calm id (runCallOnce interpreter place argument item)
      (item.references ++ given)
      (fun _ => given) given := by
  have calls (place : Place) (layers : List Snapshot) (action : Action) :
      Exchanges Session.Calm id ((callLayers interpreter place layers argument action).ensuring
        (Snapshot.dropAll layers)) (layers.map Snapshot.chain ++ given) (fun _ => given) given :=
    Exchanges.ensuring ((action.run_neutral careful place argument).insideAll layers given)
      (Transfers.dropAll layers)
  cases item with
  | wrapped callable => exact calls place callable.layers callable.action
  | plain callable => exact calls place callable.layers callable.action
  | _ => contradiction

end InvokeStep

end

/-! ## Futures -/

theorem runFuture_neutral (name : String) (body : List Step) :
    Neutral id (runFuture name body) := by
  intro given
  refine Transfers.capture.bind fun taken => ?_
  have fine := Future.balanced_ofSteps false taken body
  have binds : Transfers id (Run.bind name (.future (Future.ofSteps false taken body)))
      (Calm (taken.chain :: given)) (fun _ => Calm given) (Calm given) :=
    .bindItem name fine
  exact binds.bind fun _ => .keep _

theorem runLocalFuture_neutral (name : String) (body : List Step) :
    Neutral id (runLocalFuture name body) := by
  intro given
  refine Transfers.capture.bind fun taken => ?_
  have fine := Future.balanced_ofSteps true taken body
  have keeps : Transfers id (Run.keepFuture name (Future.ofSteps true taken body))
      (Calm (taken.chain :: given)) (fun _ => Calm given) (Calm given) :=
    Exchanges.keepFuture name fine
  exact keeps.bind fun _ => .keep _

end Ambient.Script
