import Ambient.Proofs.ActReferences
import Ambient.Proofs.Tidy

/-!
# What sessions keep

Whatever is put into a register, named by a thread or kept by it is referred to by the
session from then on, and what was there before is given up; whatever is taken out is left
to the one that takes it.
-/

namespace Ambient.Script

variable {α β : Type} {fact : Session → Prop} {id : ThreadId} {given lost : List Chain}
  {before final : Claim} {after : α → Claim} {last : β → Claim}

/-! ## Acts of the library -/

namespace Transfers

theorem current (type : CaptorType) :
    Transfers id (Act.current type) (Given fact given) (fun _ => Given fact given) final :=
  .silently (fun id thread => ⟨_, _, Act.current_moves id thread type, fun torn => torn⟩)
    (.current type)

theorem thread :
    Transfers id (Act.thread : Run Thread) (Given fact given) (fun _ => Given fact given) final :=
  .silently (fun id thread => ⟨_, _, Act.thread_moves id thread, fun torn => torn⟩)
    (.of_still (fun _ _ => rfl) _ _)

theorem release (chain : Chain) :
    Transfers id (Act.release chain) (Given fact (chain :: given)) (fun _ => Given fact given)
      final :=
  .silently (fun id thread => ⟨_, _, Act.release_moves id thread chain, fun torn => torn⟩)
    (.release chain)

theorem capture :
    Transfers id Snapshot.capture (Given fact given)
      (fun taken => Given fact (taken.chain :: given)) final :=
  .silently (fun id thread => ⟨_, _, Snapshot.capture_moves id thread, fun torn => torn⟩)
    Snapshot.capture_settles

theorem buildBridge (type : CaptorType) :
    Transfers id (Bridge.build type) (Given fact given) (fun _ => Given fact given) final :=
  .silently (fun id thread => ⟨_, _, Bridge.build_moves type id thread, fun torn => torn⟩)
    (Bridge.build_settles type)

theorem dropAll (snapshots : List Snapshot) :
    Transfers id (Snapshot.dropAll snapshots) (Given fact (snapshots.map Snapshot.chain ++ given))
      (fun _ => Given fact given) final := by
  induction snapshots with
  | nil => exact .keep ()
  | cons snapshot rest ih => exact (release snapshot.chain).bind fun _ => ih

theorem drop (item : Item) :
    Transfers id item.drop (Given fact (item.references ++ given)) (fun _ => Given fact given)
      final :=
  dropAll item.snapshots

theorem start (opening : Opening) :
    Transfers id (opening.start : Run Handle) (Given fact given)
      (fun handle => Given fact (handle.references ++ given)) final :=
  .silently (fun id thread => ⟨_, _, opening.start_moves id thread, by simp⟩)
    opening.start_settles

end Transfers

namespace Exchanges

theorem finish (handle : Handle) :
    Exchanges fact id (handle.finish : Run Unit) (handle.references ++ given) (fun _ => given)
      given :=
  .of_settles (fun id thread => ⟨_, _, _, handle.finish_moves id thread, by simp⟩)
    handle.finish_settles

/-- A close that a body ends with in any case. -/
theorem ensuring {act : Run α} {close : Run Unit} {middle : List Chain}
    (body : Exchanges fact id act given (fun _ => middle) middle)
    (closes : Exchanges fact id close middle (fun _ => lost) lost) :
    Exchanges fact id (act.ensuring close) given (fun _ => lost) lost :=
  Transfers.ensuring body (fun _ => closes) closes

theorem finishAll (handles : List Handle) :
    Exchanges fact id (Handle.finishAll handles : Run Unit)
      (handles.flatMap Handle.references ++ given)
      (fun _ => given) given := by
  induction handles with
  | nil => exact .keep ()
  | cons handle rest ih =>
      rw [List.flatMap_cons, List.append_assoc]
      exact (finish handle).ensuring ih

theorem finishReversed (handles : List Handle) :
    Exchanges fact id (Handle.finishAll handles.reverse : Run Unit)
      (handles.flatMap Handle.references ++ given) (fun _ => given) given := by
  have turned := (List.reverse_perm handles).symm.flatMap_right Handle.references
  exact (finishAll handles.reverse).perm (turned.append_right given) (fun _ => .refl _) (.refl _)

/-- Whether or not all is in order, all handles of a stack are finished. -/
theorem finishStack (handles : List Handle) :
    Exchanges fact id (Handle.finishStack handles : Run Unit)
      (handles.flatMap Handle.references ++ given) (fun _ => given) given := by
  induction handles with
  | nil => exact .keep ()
  | cons handle rest ih =>
      rw [List.flatMap_cons, List.append_assoc]
      have others : Exchanges fact id
          (fun context process => Handle.finishAll rest.reverse context process)
          (rest.flatMap Handle.references ++ given) (fun _ => given) given :=
        finishReversed rest
      exact (Transfers.onPanic (finish handle) others).bind fun _ => ih

theorem dropFuture (future : Future) :
    Exchanges fact id (future.drop : Run Unit) (future.references ++ given) (fun _ => given)
      given := by
  have drops : Exchanges fact id (future.drop : Run Unit)
      (future.snapshots.map Snapshot.chain ++ (future.held.flatMap Handle.references ++ given))
      (fun _ => given) given :=
    (Transfers.dropAll future.snapshots).bind fun _ => finishAll future.held
  refine drops.perm ?_ (fun _ => .refl _) (.refl _)
  rw [← List.append_assoc]
  exact future.references_perm.append_right given

end Exchanges

namespace Transfers

/-- Referring to an empty chain is referring to nothing. -/
theorem blank {act : Run α} (transfers : Transfers id act (Given fact ([] :: given)) after final) :
    Transfers id act (Given fact given) after final := by
  rintro active others context process here attends ⟨own, ⟨known, order⟩, accounted⟩
  exact transfers active others context process here attends ⟨[] :: own, ⟨known, order.cons []⟩,
    { accounted with custody := Process.Custody.cons_nil.mpr accounted.custody }⟩

/-- What the session refers to, someone else may refer to as well. -/
theorem hold {chain : Chain} {session : Session} (has : chain = [] ∨ chain ∈ session.references) :
    Transfers id (Act.hold chain) ((Calm given).at session)
      (fun _ => (Calm (chain :: given)).at session) final := by
  refine .of_value (fun _ _ => rfl) ?_
  rintro active others context process rfl attends ⟨own, ⟨rfl, calm, order⟩, accounted⟩
  have known : process.registry.Has chain := by
    rcases has with rfl | member
    · trivial
    · exact accounted.custody.counts.has chain (List.mem_append_left _
        (List.mem_append_right _ (List.mem_append_left _ member)))
  obtain ⟨-, moved⟩ := Act.hold_moves context.thread _ chain context process rfl rfl
  exact ⟨.of_moved moved fun torn => torn, chain :: own, ⟨rfl, calm, order.cons chain⟩,
    accounted.moved attends moved (accounted.custody.hold known)⟩

theorem holdAll {snapshots : List Snapshot} {session : Session}
    (has : ∀ snapshot ∈ snapshots, snapshot.chain ∈ session.references) :
    Transfers id (Snapshot.holdAll snapshots) ((Calm given).at session)
      (fun _ => (Calm (snapshots.map Snapshot.chain ++ given)).at session) final := by
  induction snapshots generalizing given with
  | nil => exact .pure fun _ _ fact => fact
  | cons snapshot rest ih =>
      refine (hold (.inr (has snapshot (.head _)))).bind fun _ => ?_
      refine (ih fun other member => has other (.tail _ member)).conseq
        (fun _ _ fact => fact) (fun _ _ _ fact => ?_) fun _ _ fact => fact
      exact ⟨fact.1, fact.2.1, fact.2.2.trans List.perm_middle⟩

/-! ## Registers -/

/-- What is known already is what is read. -/
theorem reading_at {claim : Claim} {session : Session} {next : Session → Run β}
    (rest : Transfers id (next session) (claim.at session) last final) :
    Transfers id (Run.session >>= next) (claim.at session) last final := by
  rintro active others context process here attends ⟨own, ⟨rfl, fact⟩, accounted⟩
  exact rest active others context process here attends ⟨own, ⟨rfl, fact⟩, accounted⟩

theorem item? {register : String} {next : Option Item → Run β}
    (rest : ∀ session found, session.Neat → session.registers.find? register = found →
      Transfers id (next found) (before.at session) last final) :
    Transfers id (Run.item? register >>= next) before last final := by
  have looked : Run.item? register >>= next = Run.session >>= fun session =>
      next (session.registers.find? register) := rfl
  rw [looked]
  exact .reading fun session neat => rest session _ neat rfl

theorem unbind {register : String} {session : Session} {item : Item}
    (found : session.registers.find? register = some item) :
    Transfers id (Run.unbind register) ((Calm given).at session)
      (fun _ => Calm (item.references ++ given)) final := by
  refine .modify ?_
  rintro session own neat ⟨rfl, calm, order⟩
  have erased := Session.references_erase neat register
  rw [found, Option.toList_some, List.flatMap_singleton, ← List.nil_append session.references]
    at erased
  exact ⟨neat.erase register,
    ⟨Nat.le_refl _, List.Subset.refl _, fun _ _ => rfl, fun _ _ => rfl⟩, item.references ++ own,
    ⟨calm, order.append_left _⟩, Session.trade erased (.refl _)⟩

end Transfers

theorem Transfers.bindItem (register : String) {item : Item} (fine : item.Balanced) :
    Transfers id (Run.bind register item) (Calm (item.references ++ given)) (fun _ => Calm given)
      final := by
  refine Transfers.item? fun session old neat found => ?_
  have puts : Transfers id (Run.modify fun session =>
      { session with registers := session.registers.insert register item })
      ((Calm (item.references ++ given)).at session)
      (fun _ => Calm (old.toList.flatMap Item.references ++ given)) final := by
    refine .modify ?_
    rintro session own neat ⟨rfl, calm, order⟩
    have inserted := session.references_insert register item
    rw [found] at inserted
    refine ⟨neat.insert register fine, ⟨Nat.le_refl _, List.Subset.refl _, fun _ _ => rfl,
      fun _ _ => rfl⟩, old.toList.flatMap Item.references ++ given, ⟨calm, .refl _⟩, ?_⟩
    refine Session.trade inserted ((order.append_left _).trans ?_)
    exact List.perm_append_comm_assoc _ _ _
  refine puts.bind fun _ => ?_
  cases old with
  | none => exact .keep ()
  | some old => simpa using Transfers.drop old

/-- What is taken out of its register is left to what comes next. -/
theorem Exchanges.taking (place : Place) {register : String} {fits : Item → Bool}
    {next : Item → Run Value}
    (each : ∀ item, item.Balanced → fits item = true →
      Exchanges Session.Calm id (next item) (item.references ++ given) (fun _ => given) given) :
    Exchanges Session.Calm id (taking place register fits next) given (fun _ => given) given := by
  refine Transfers.item? fun session found neat known => ?_
  cases found with
  | none => exact .forget session (.keep _)
  | some item =>
      have takes (fit : fits item = true) : Transfers id
          (Run.unbind register >>= fun _ => next item)
          ((Calm given).at session) (fun _ => Calm given) (Calm given) :=
        (Transfers.unbind known).bind fun _ => each item (neat.item known) fit
      dsimp only
      split
      · rename_i fit
        split
        · split
          · exact .forget session (.keep _)
          · exact takes fit
        · exact takes fit
      · exact .forget session (.keep _)

/-! ## Handles -/

namespace Session

theorem handlesOf_setHandles (session : Session) (thread other : ThreadId)
    (named : List (String × Handle)) :
    (session.setHandles thread named).handlesOf other =
      if thread = other then named else session.handlesOf other := by
  by_cases same : thread = other <;> simp [handlesOf, setHandles, same]

/-- Of distinct names one goes with its handle. -/
theorem handleReferences_filter {named : List (String × Handle)} {name : String} {handle : Handle}
    (distinct : (named.map (·.1)).Nodup) (found : named.lookup name = some handle) :
    (handleReferences named).Perm
      (handle.references ++ handleReferences (named.filter fun entry => entry.1 ≠ name)) := by
  induction named with
  | nil => contradiction
  | cons entry rest ih =>
      obtain ⟨other, first⟩ := entry
      rw [List.map_cons, List.nodup_cons] at distinct
      by_cases same : other = name
      · subst same
        rw [List.lookup_cons_self, Option.some.injEq] at found
        have others : rest.filter (fun entry => entry.1 ≠ other) = rest := by
          refine List.filter_eq_self.mpr fun entry member => ?_
          have apart : entry.1 ≠ other := fun again =>
            distinct.1 (List.mem_map.mpr ⟨entry, member, again⟩)
          simpa using apart
        rw [List.filter_cons_of_neg (by simp), others, ← found]
        exact .refl _
      · have later : rest.lookup name = some handle := by
          rwa [List.lookup_cons, beq_eq_false_iff_ne.mpr (Ne.symm same)] at found
        rw [List.filter_cons_of_pos (by simpa using same)]
        have rest := (ih distinct.2 later).append_left first.references
        exact rest.trans (List.perm_append_comm_assoc _ _ _)

end Session

namespace Transfers

theorem handles {next : List (String × Handle) → Run β}
    (rest : ∀ session, session.Neat → Transfers id (next (session.handlesOf id)) (before.at session)
      last final) : Transfers id (Run.handles >>= next) before last final := by
  have looked : Run.handles >>= next = Run.session >>= fun session =>
      Run.threadId >>= fun thread => next (session.handlesOf thread) := rfl
  rw [looked]
  exact .reading fun session neat => .threadId (rest session neat)

theorem handles_at {claim : Claim} {session : Session} {next : List (String × Handle) → Run β}
    (rest : Transfers id (next (session.handlesOf id)) (claim.at session) last final) :
    Transfers id (Run.handles >>= next) (claim.at session) last final := by
  have looked : Run.handles >>= next = Run.session >>= fun session =>
      Run.threadId >>= fun thread => next (session.handlesOf thread) := rfl
  rw [looked]
  exact .reading_at (.threadId rest)

theorem handle? {name : String} {next : Option Handle → Run β}
    (rest : ∀ session found, session.Neat → (session.handlesOf id).lookup name = found →
      Transfers id (next found) (before.at session) last final) :
    Transfers id (Run.handle? name >>= next) before last final := by
  have looked : Run.handle? name >>= next = Run.handles >>= fun named =>
      next (named.lookup name) := by
    rw [Run.handle?, bind_assoc]
    rfl
  rw [looked]
  exact .handles fun session neat => rest session _ neat rfl

theorem setHandles {named : List (String × Handle)} {session : Session} {left : List Chain}
    (distinct : (named.map (·.1)).Nodup)
    (moved : (Session.handleReferences (session.handlesOf id) ++ given).Perm
      (Session.handleReferences named ++ left))
    (known : session.Calm → fact (session.setHandles id named)) :
    Transfers id (Run.setHandles named) ((Calm given).at session) (fun _ => Given fact left)
      final := by
  refine .threadId (.modify ?_)
  rintro session own neat ⟨rfl, calm, order⟩
  refine ⟨neat.setHandles id distinct, ⟨Nat.le_refl _, List.Subset.refl _, fun other apart => ?_,
    fun _ _ => rfl⟩, left, ⟨known calm, .refl _⟩, ?_⟩
  · rw [Session.handlesOf_setHandles, if_neg apart]
  · exact Session.trade (session.references_setHandles id named)
      ((order.append_left _).trans moved)

theorem removeHandle {name : String} {session : Session} {handle : Handle} (neat : session.Neat)
    (found : (session.handlesOf id).lookup name = some handle) :
    Transfers id (Run.removeHandle name) ((Calm given).at session)
      (fun _ => Calm (handle.references ++ given)) final := by
  refine handles_at (setHandles ?_ ?_ fun calm => calm)
  · exact (neat.handlesOf id).sublist (List.filter_sublist.map _)
  · have split := Session.handleReferences_filter (neat.handlesOf id) found
    refine (split.append_right given).trans ?_
    rw [List.append_assoc]
    exact List.perm_append_comm_assoc _ _ _

/-! ## Futures of a thread -/

theorem futures {next : Table String Future → Run β}
    (rest : ∀ session, session.Neat → Transfers id (next (session.futuresOf id)) (before.at session)
      last final) : Transfers id (Run.futures >>= next) before last final := by
  have looked : Run.futures >>= next = Run.session >>= fun session =>
      Run.threadId >>= fun thread => next (session.futuresOf thread) := rfl
  rw [looked]
  exact .reading fun session neat => .threadId (rest session neat)

theorem futures_at {claim : Claim} {session : Session} {next : Table String Future → Run β}
    (rest : Transfers id (next (session.futuresOf id)) (claim.at session) last final) :
    Transfers id (Run.futures >>= next) (claim.at session) last final := by
  have looked : Run.futures >>= next = Run.session >>= fun session =>
      Run.threadId >>= fun thread => next (session.futuresOf thread) := rfl
  rw [looked]
  exact .reading_at (.threadId rest)

theorem setFutures {futures : Table String Future} {session : Session} {left : List Chain}
    (distinct : futures.keys.Nodup) (fine : ∀ future ∈ futures.values, future.Balanced true)
    (moved : (Session.futureReferences (session.futuresOf id) ++ given).Perm
      (Session.futureReferences futures ++ left))
    (known : session.Calm → fact (session.setFutures id futures)) :
    Transfers id (Run.setFutures futures) ((Calm given).at session) (fun _ => Given fact left)
      final := by
  refine .threadId (.modify ?_)
  rintro session own neat ⟨rfl, calm, order⟩
  refine ⟨neat.setFutures id distinct fine, ⟨Nat.le_refl _, List.Subset.refl _, fun _ _ => rfl,
    fun other apart => ?_⟩, left, ⟨known calm, .refl _⟩, ?_⟩
  · rw [Session.futuresOf_setFutures, if_neg apart]
  · exact Session.trade (session.references_setFutures id futures)
      ((order.append_left _).trans moved)

theorem removeFuture {name : String} {session : Session} {future : Future} (neat : session.Neat)
    (found : (session.futuresOf id).find? name = some future)
    (known : session.Calm → fact (session.setFutures id ((session.futuresOf id).erase name))) :
    Transfers id (Run.removeFuture name) ((Calm given).at session)
      (fun _ => Given fact (future.references ++ given)) final := by
  obtain ⟨distinct, fine⟩ := neat.futuresOf id
  have erased := Table.values_erase distinct name
  refine futures_at (setFutures (Table.nodup_keys_erase distinct name) (fun other member => ?_) ?_
    known)
  · exact fine other (erased.mem_iff.mp (List.mem_append_right _ member))
  · rw [found] at erased
    have split := (erased.flatMap_right Future.references).append_right given
    rw [List.flatMap_append, Option.toList_some, List.flatMap_singleton, List.append_assoc] at split
    exact split.symm.trans (List.perm_append_comm_assoc _ _ _)

end Transfers

/-- The future that was kept under the name is given up. -/
theorem Exchanges.keepFuture (name : String) {future : Future} (fine : future.Balanced true) :
    Exchanges Session.Calm id (Run.keepFuture name future) (future.references ++ given)
      (fun _ => given) given := by
  refine Transfers.futures fun session neat => ?_
  obtain ⟨distinct, others⟩ := neat.futuresOf id
  have inserted := (session.futuresOf id).values_insert name future
  let old := ((session.futuresOf id).find? name).toList
  have puts : Transfers id (Run.setFutures ((session.futuresOf id).insert name future))
      ((Calm (future.references ++ given)).at session)
      (fun _ => Calm (old.flatMap Future.references ++ given)) (Calm given) := by
    refine .setFutures (Table.nodup_keys_insert distinct name future) (fun other member => ?_) ?_
      fun calm => calm
    · rcases Table.mem_values_of_insert member with rfl | old
      · exact fine
      · exact others other old
    · have moved := (inserted.flatMap_right Future.references).append_right given
      rw [List.flatMap_append, List.flatMap_cons, List.append_assoc, List.append_assoc] at moved
      refine (List.perm_append_comm_assoc _ _ _).trans (moved.symm.trans ?_)
      exact List.perm_append_comm_assoc _ _ _
  refine puts.bind fun _ => ?_
  cases found : (session.futuresOf id).find? name with
  | none => simpa [old, found] using Transfers.keep ()
  | some future => simpa [old, found] using Exchanges.dropFuture future

/-! ## The history -/

namespace Transfers

theorem note (happening : Happening)
    (spared : ∀ session history, fact session → fact { session with history := history }) :
    Transfers id (Run.note happening) (Given fact given) (fun _ => Given fact given) final := by
  refine .of_value (fun _ _ => rfl) ?_
  rintro active others context process here attends ⟨own, known, accounted⟩
  obtain ⟨⟨distinct, clear, counts, numbered⟩, neat, idle⟩ := accounted
  refine ⟨⟨Nat.le_refl _, List.Subset.refl _, fun _ torn => torn⟩, own,
    ⟨spared _ _ known.1, known.2⟩, ⟨distinct, clear, counts, numbered⟩,
    ⟨neat.registers, neat.items, neat.handles, neat.named, neat.futures, neat.kept⟩,
    fun other unattended => ?_⟩
  obtain ⟨thread, handles, futures⟩ := idle other unattended
  exact ⟨thread, handles, futures⟩

theorem addEntry (label : String) (result : Value)
    (spared : ∀ session history, fact session → fact { session with history := history }) :
    Transfers id (Run.addEntry label result) (Given fact given) (fun _ => Given fact given) final :=
  Transfers.thread.bind fun _ => .threadId (note _ spared)

end Transfers

theorem Neutral.recorded (label : String) {step : Run Value} (neutral : Neutral id step) :
    Neutral id (Run.recorded label step) := by
  intro rest
  have adds (result : Value) : Exchanges Session.Calm id (Run.addEntry label result) rest
      (fun _ => rest) rest :=
    .addEntry label result fun _ _ calm => calm
  refine (neutral rest).attempt.bind fun outcome => ?_
  cases outcome with
  | value value => exact (adds value).bind fun _ => .keep value
  | panic panic => exact (adds (.panicked panic.message)).bind fun _ => .raise fun _ _ fact => fact

end Ambient.Script
