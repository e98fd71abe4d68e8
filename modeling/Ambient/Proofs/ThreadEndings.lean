import Ambient.Proofs.StepReferences

/-!
# Threads end with nothing left

A thread that ends first ends what it has left, and loses its slots and its chain, before
or after that.  From then on it has nothing, so it need not be attended to any more.
-/

namespace Ambient

open Script

/-! ## What a thread has left -/

namespace Script

variable {α β : Type} {id : ThreadId} {known session : Session} {given rest : List Chain}
  {handles : List (String × Handle)} {futures : Table String Future} {final : Claim}

/-- A thread has just these handles and futures, and the others have what they had. -/
structure Session.Having (id : ThreadId) (known : Session) (handles : List (String × Handle))
    (futures : Table String Future) (session : Session) : Prop where
  calm : session.Calm
  own : known.Own id session
  workers : session.workers = known.workers
  handles : session.handlesOf id = handles
  futures : session.futuresOf id = futures

namespace Session.Having

theorem start (calm : session.Calm) :
    Having id session (session.handlesOf id) (session.futuresOf id) session :=
  ⟨calm, ⟨Nat.le_refl _, List.Subset.refl _, fun _ _ => rfl, fun _ _ => rfl⟩, rfl, rfl, rfl⟩

theorem spare (having : Having id known handles futures session) (history : List Happening) :
    Having id known handles futures { session with history := history } :=
  ⟨having.calm, ⟨having.own.spawned, having.own.workers, having.own.handles, having.own.futures⟩,
    having.workers, having.handles, having.futures⟩

theorem setHandles (having : Having id known handles futures session)
    (named : List (String × Handle)) :
    Having id known named futures (session.setHandles id named) where
  calm := having.calm
  own := ⟨having.own.spawned, having.own.workers, fun other apart => by
    rw [handlesOf_setHandles, if_neg apart, having.own.handles other apart], having.own.futures⟩
  workers := having.workers
  handles := by rw [handlesOf_setHandles, if_pos rfl]
  futures := having.futures

theorem setFutures (having : Having id known handles futures session)
    (kept : Table String Future) :
    Having id known handles kept (session.setFutures id kept) where
  calm := having.calm
  own := ⟨having.own.spawned, having.own.workers, having.own.handles, fun other apart => by
    rw [futuresOf_setFutures, if_neg apart, having.own.futures other apart]⟩
  workers := having.workers
  handles := having.handles
  futures := by rw [futuresOf_setFutures, if_pos rfl]

end Session.Having

/-- Whatever is ended last, what it leaves is the same with a misuse and without. -/
theorem endLeftover_transfers {fact : Session → Prop} (name : String) {ending : Run Unit}
    {before : List Chain}
    (spared : ∀ session history, fact session → fact { session with history := history })
    (ends : Transfers id ending (Given fact before) (fun _ => Given fact given)
      (Given fact given)) :
    Transfers id (endLeftover name ending) (Given fact before) (fun _ => Given fact given)
      final := by
  have valued : Transfers id (ending *> return Value.null) (Given fact before)
      (fun _ => Given fact given) (Given fact given) :=
    ends.bind fun _ => .keep _
  exact valued.attempt.bind fun outcome => .addEntry _ _ spared

theorem endFutures_transfers (names : List String) {futures : Table String Future}
    (all : ∀ name ∈ futures.keys, name ∈ names) :
    Transfers id (endFutures names) (Given (Session.Having id known handles futures) given)
      (fun _ => Given (fun session => ∃ rest, rest.keys = [] ∧
        Session.Having id known handles rest session) given) final := by
  induction names generalizing futures with
  | nil =>
      have none : futures.keys = [] := List.eq_nil_iff_forall_not_mem.mpr fun name member =>
        nomatch all name member
      exact .pure fun _ _ fact => ⟨⟨futures, none, fact.1⟩, fact.2⟩
  | cons name later ih =>
      refine Transfers.futures fun session neat => ?_
      refine .of_fact (fun _ _ fact => fact.1 ▸ fact.2.1) fun having => ?_
      obtain rfl := having.futures
      cases found : (session.futuresOf id).find? name with
      | none =>
          refine .forget session (ih fun other member => ?_)
          have absent := Table.lookup_eq_none.mp found
          exact (List.mem_cons.mp (all other member)).resolve_left fun same =>
            absent (same ▸ member)
      | some future =>
          have removes : Transfers id (Run.removeFuture name)
              ((Given (Session.Having id known handles (session.futuresOf id)) given).at session)
              (fun _ => Given (Session.Having id known handles ((session.futuresOf id).erase name))
                (future.references ++ given)) final :=
            (Transfers.removeFuture neat found fun _ => having.setFutures _).of_start
              fun _ _ fact => ⟨fact.1, fact.2.1.calm, fact.2.2⟩
          refine removes.bind fun _ => ?_
          refine (endLeftover_transfers name (fun _ history having => having.spare history)
            (Exchanges.dropFuture future)).bind fun _ => ih fun other member => ?_
          obtain ⟨old, apart⟩ := Table.mem_keys_erase member
          exact (List.mem_cons.mp (all other old)).resolve_left apart

theorem endHandles_transfers (named : List (String × Handle)) :
    Transfers id (endHandles named) (Given (Session.Having id known named futures) given)
      (fun _ => Given (Session.Having id known [] futures) given) final := by
  induction named with
  | nil => exact .keep ()
  | cons entry rest ih =>
      refine Transfers.of_each fun session neat => ?_
      refine .of_fact (fun _ _ fact => fact.1 ▸ fact.2.1) fun having => ?_
      have same := having.handles
      have sets : Transfers id (Run.setHandles rest)
          ((Given (Session.Having id known (entry :: rest) futures) given).at session)
          (fun _ => Given (Session.Having id known rest futures) (entry.2.references ++ given))
          final := by
        refine Transfers.of_start (Transfers.setHandles ?_ ?_ fun _ => having.setHandles rest)
          fun _ _ fact => ⟨fact.1, fact.2.1.calm, fact.2.2⟩
        · have distinct := neat.handlesOf id
          rw [same, List.map_cons, List.nodup_cons] at distinct
          exact distinct.2
        · rw [same, Session.handleReferences, List.flatMap_cons, List.append_assoc]
          exact List.perm_append_comm_assoc _ _ _
      refine sets.bind fun _ => ?_
      exact (endLeftover_transfers entry.1 (fun _ history having => having.spare history)
        (Exchanges.finish entry.2)).bind fun _ => ih

theorem mem_insertName {name other : String} {names : List String} :
    other ∈ insertName name names ↔ other = name ∨ other ∈ names := by
  induction names with
  | nil => simp [insertName]
  | cons first rest ih =>
      by_cases same : name = first
      · simp [insertName, same]
      · by_cases before : name < first
        · simp [insertName, same, before]
        · simp [insertName, same, before, ih, or_left_comm]

theorem mem_sortNames {name : String} {names : List String} :
    name ∈ sortNames names ↔ name ∈ names := by
  induction names with
  | nil => exact .rfl
  | cons first rest ih =>
      rw [sortNames, List.foldr_cons, mem_insertName, List.mem_cons]
      exact or_congr_right ih

theorem endLeftovers_transfers :
    Transfers id endLeftovers ((Calm given).at known)
      (fun _ => Given (fun session => ∃ futures, futures.keys = [] ∧
        Session.Having id known [] futures session) given) final := by
  refine Transfers.futures_at ?_
  have futures : Transfers id (endFutures (sortNames (known.futuresOf id).keys))
      (Given (Session.Having id known (known.handlesOf id) (known.futuresOf id)) given) _ final :=
    endFutures_transfers _ fun name member => mem_sortNames.mpr member
  refine Transfers.bind (futures.of_start ?_) fun _ => .handles fun session neat => ?_
  · rintro _ own ⟨rfl, calm, order⟩
    exact ⟨.start calm, order⟩
  refine .of_fact (fun _ _ fact => fact.1 ▸ fact.2.1) fun ⟨futures, gone, having⟩ => ?_
  obtain handles : session.handlesOf id = known.handlesOf id := having.handles
  have ends : Transfers id (endHandles (session.handlesOf id))
      (Given (Session.Having id known (session.handlesOf id) futures) given) _ final :=
    endHandles_transfers _
  refine ends.conseq ?_ (fun _ _ _ fact => ⟨⟨futures, gone, fact.1⟩, fact.2⟩) fun _ _ fact => fact
  rintro _ own ⟨rfl, -, order⟩
  exact ⟨handles ▸ having, order⟩

end Script

/-! ## Threads that end -/

/-- A thread has no handle and no future any more. -/
structure Script.Session.Emptied (id : ThreadId) (session : Session) : Prop where
  calm : session.Calm
  handles : session.handlesOf id = []
  futures : (session.futuresOf id).keys = []

namespace Process

variable {process : Process Session} {id : ThreadId} {active : List Nat} {others : List Chain}

/-- A thread that is torn down and has neither handle nor future any more has nothing. -/
theorem Accounted.quiet (accounted : process.Accounted active others)
    (torn : (process.thread id).live = false) (emptied : process.client.Emptied id) :
    process.Quiet id where
  thread := ⟨accounted.custody.clear_thread id torn, by
    rw [Thread.chain, torn, if_neg Bool.false_ne_true]⟩
  handles := emptied.handles
  futures := emptied.futures

theorem Accounted.widen (accounted : process.Accounted active others) (index : Nat) :
    process.Accounted (index :: active) others :=
  { accounted with
    idle := fun id unattended => accounted.idle id fun attends => unattended <| by
      cases id with
      | spawned other => exact ⟨.tail _ attends.1, attends.2⟩
      | _ => exact attends }

/-- A thread that has nothing need not be attended to. -/
theorem Accounted.narrow {index : Nat} (accounted : process.Accounted (index :: active) others)
    (quiet : process.Quiet (.spawned index)) : process.Accounted active others :=
  { accounted with
    idle := fun id unattended => by
      by_cases ended : id = .spawned index
      · exact ended ▸ quiet
      · refine accounted.idle id fun attends => unattended ?_
        cases id with
        | spawned other =>
            refine ⟨(List.mem_cons.mp attends.1).resolve_left fun same => ended ?_, attends.2⟩
            rw [same]
        | _ => exact attends }

end Process

namespace Script

variable {α β : Type} {id : ThreadId} {given rest : List Chain} {final : Claim}

/-- No act leads here. -/
def Never : Claim :=
  fun _ _ => False

/-- An act that tears its thread down on the way. -/
def Tears (id : ThreadId) (act : Run α) (before : Claim) (after : α → Claim) (lost : Claim) :
    Prop :=
  ∀ (active : List Nat) (others : List Chain) (context : Context) (process : Process Session),
    context.thread = id → process.client.Attends active id →
      before.Holds active others process →
        Transferred active process others after lost (act context process) ∧
          ((act context process).2.thread id).live = false

theorem Transfers.tearDown {before : Claim} :
    Transfers id (Act.tearDown : Run Unit) before (fun _ => before) final :=
  .of_silent (fun id thread => ⟨_, _, Act.tearDown_moves id thread, fun _ => rfl⟩)
    fun _ given known => ⟨fun _ => given, .tearDown, fun _ => known⟩

theorem Tears.around {first : Run α} {last : α → Run β} {before lost : Claim}
    {middle : α → Claim} {after : β → Claim} (opens : Transfers id first before middle Never)
    (closes : ∀ value, Transfers id (last value) (middle value) after lost) :
    Tears id (first >>= fun value => Act.tearDown >>= fun _ => last value) before after lost := by
  intro active others context process here attends holds
  have opened := opens active others context process here attends holds
  rw [Act.bind_apply]
  cases run : first context process with
  | mk outcome next =>
      rw [run] at opened
      cases outcome with
      | panic panic =>
          exact (opened.panic panic rfl).elim fun _ fact => fact.1.elim
      | value value =>
          have attends := opened.grown.attends attends
          obtain ⟨torn, moved⟩ := Act.tearDown_moves id (next.thread id) context next here rfl
          have down : Transferred active next others _ lost _ :=
            Transfers.tearDown active others context next here attends (opened.value value rfl)
          have ends := closes value active others context _ here (down.grown.attends attends)
            (down.value () torn)
          have grown := (opened.grown.trans down.grown).trans ends.grown
          dsimp only
          rw [Act.bind_of_value torn]
          exact ⟨⟨grown, ends.value, ends.panic⟩, ends.grown.torn id (by rw [moved.own]; rfl)⟩

/-- Another thread may do the act, if it is attended to. -/
theorem Transfers.onThread {other : ThreadId} {act : Run α} {before left : Claim}
    (attends : ∀ active session own, before session own → session.Attends active other)
    (transfers : Transfers other act before (fun _ => left) left) :
    Transfers id (Act.onThread other act) before (fun _ => left) final := by
  rintro active others context process - - ⟨own, known, accounted⟩
  exact transfers.attempt active others { context with thread := other, unwinding := false } process
    rfl (attends active process.client own known) ⟨own, known, accounted⟩

/-- A thread that is spawned is attended to until it has ended. -/
theorem Transfers.spawning {act : ThreadId → Run α}
    (tears : ∀ thread, Tears thread (act thread) (Calm given)
      (fun _ => Given (Session.Emptied thread) given) (Given (Session.Emptied thread) given)) :
    Transfers id (nextThread >>= fun thread => Act.onThread thread (act thread)) (Calm given)
      (fun _ => Calm given) final := by
  rintro active others context process here attends ⟨own, ⟨calm, order⟩, accounted⟩
  let index := process.client.spawned + 1
  let session : Session := { process.client with spawned := index }
  let next : Process Session := { process with client := session }
  have same : process.client.Untouched session :=
    ⟨rfl, rfl, rfl, rfl, Nat.le_succ _, List.Subset.refl _⟩
  have spawned : next.Accounted (index :: active) (own ++ others) :=
    (accounted.client attends (same.neat accounted.neat) (same.own id)
      (.of_eq (by rw [same.references]))).widen index
  obtain ⟨went, torn⟩ := tears (.spawned index) (index :: active) others
    { context with thread := .spawned index, unwinding := false } next rfl
    ⟨.head _, Nat.le_refl _⟩ ⟨own, ⟨calm, order⟩, spawned⟩
  have grown : process.Grown next := ⟨same.spawned, same.workers, fun _ torn => torn⟩
  let last := (act (.spawned index) { context with thread := .spawned index, unwinding := false }
    next).2
  have left (found : (Given (Session.Emptied (.spawned index)) given : Claim).Holds
      (index :: active) others last) : (Calm given).Holds active others last := by
    obtain ⟨left, ⟨emptied, order⟩, still⟩ := found
    exact ⟨left, ⟨emptied.calm, order⟩, still.narrow (still.quiet torn emptied)⟩
  refine ⟨grown.trans went.grown, fun outcome _ => ?_, nofun⟩
  cases ended : (act (.spawned index) { context with thread := .spawned index, unwinding := false }
    next).1 with
  | value value => exact left (went.value value ended)
  | panic panic => exact left (went.panic panic ended)

/-- All that a thread still holds is ended, in whatever way that goes. -/
theorem endLeftovers_empty : Transfers id endLeftovers (Calm given)
    (fun _ => Given (Session.Emptied id) given) final := by
  refine .of_each fun known _ => endLeftovers_transfers.conseq (fun _ _ fact => fact)
    (fun _ session own fact => ?_) fun _ _ fact => fact
  obtain ⟨⟨futures, gone, having⟩, order⟩ := fact
  exact ⟨⟨having.calm, having.handles, having.futures ▸ gone⟩, order⟩

section

variable {interpreter : Interpreter} (careful : interpreter.Careful)
include careful

theorem runThread_neutral (place : Place) (body : List Step) :
    Neutral id (runThread interpreter place body) := by
  intro given
  have tears (thread : ThreadId) : Tears thread
      ((Act.attempt (interpreter.body (place.onThread thread) body) >>= fun outcome =>
        endLeftovers >>= fun _ => pure outcome) >>= fun outcome =>
          Act.tearDown >>= fun _ => Act.conclude outcome) (Calm given)
      (fun _ => Given (Session.Emptied thread) given) (Given (Session.Emptied thread) given) :=
    .around ((careful.body _ body given).attempt.bind fun outcome =>
      endLeftovers_empty.bind fun _ => .keep outcome) fun outcome => .conclude outcome
  have whole : Transfers id _ (Calm given) (fun _ => Calm given) (Calm given) :=
    (Transfers.spawning tears).bind fun outcome => .keep (Run.settled outcome)
  simpa only [runThread, endThread, bind_assoc, pure_bind] using whole

theorem runTeardown_neutral (place : Place) (body after : List Step) :
    Neutral id (runTeardown interpreter place body after) := by
  intro given
  have tears (thread : ThreadId) : Tears thread
      (Act.attempt (interpreter.body (place.onThread thread) body) >>= fun outcome =>
        Act.tearDown >>= fun _ =>
          Act.attempt (interpreter.body ((place.onThread thread).below "after") after) >>=
            fun _ => endLeftovers >>= fun _ => Act.conclude outcome) (Calm given)
      (fun _ => Given (Session.Emptied thread) given) (Given (Session.Emptied thread) given) :=
    .around (careful.body _ body given).attempt fun outcome =>
      (careful.body _ after given).attempt.bind fun _ =>
        endLeftovers_empty.bind fun _ => .conclude outcome
  have whole : Transfers id _ (Calm given) (fun _ => Calm given) (Calm given) :=
    (Transfers.spawning tears).bind fun outcome => .keep (Run.settled outcome)
  simpa only [runTeardown, bind_assoc] using whole

theorem runWorker_neutral (place : Place) (name : String) (body : List Step) :
    Neutral id (runWorker interpreter place name body) := by
  intro given
  unfold runWorker
  dsimp only
  split
  · exact .keep _
  · let started := Given (fun session => session.Calm ∧ name ∈ session.workers) given
    have starts : Transfers id
        (Run.modify fun session => { session with workers := insertName name session.workers })
        (Calm given) (fun _ => started) (Calm given) := by
      refine .untouched (fun session => ⟨rfl, rfl, rfl, rfl, Nat.le_refl _, fun other member => ?_⟩)
        fun session own known => ⟨⟨known.1, mem_insertName.mpr (.inl rfl)⟩, known.2⟩
      exact mem_insertName.mpr (.inr member)
    have works : Transfers (.worker name) (interpreter.body (place.onWorker (.worker name)) body)
        started (fun _ => Calm given) (Calm given) :=
      (careful.body _ body given).of_start fun _ _ known => ⟨known.1.1, known.2⟩
    exact starts.bind fun _ =>
      (Transfers.onThread (fun _ _ _ known => known.1.2) works).bind fun _ => .keep _

end

end Script

end Ambient
