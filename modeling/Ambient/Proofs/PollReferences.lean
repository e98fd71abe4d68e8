import Ambient.Proofs.KeptReferences
import Ambient.Proofs.Polls

/-!
# What references polls give back

Whoever keeps a future keeps all that it refers to.  A poll gives back the future that is
left when it pauses, and the layers when it is over.  If a layer panics in the end, the
session still finds what is to be given back, as it keeps what is left until the poll is over.
-/

namespace Ambient.Script

variable {α : Type} {id : ThreadId} {bound : Bool} {layers : List Snapshot}
  {given rest : List Chain} {fact : Session → Prop} {final : Claim}

/-- What a future refers to, if there is one. -/
def referred : Option Future → List Chain
  | none => []
  | some future => future.references

/-- A future that is left ends the handles it holds. -/
def Suspends (bound : Bool) (left : Option Future) (session : Session) : Prop :=
  session.suspended = left ∧ ∀ future ∈ left, future.Balanced bound

/-- What is to be given back: what is left of a future, or else its layers. -/
def givenBack (layers : List Snapshot) : Option Future → List Chain
  | none => layers.map Snapshot.chain
  | some left => left.references

/-- How things stand when a poll is over, with what is left of the future, if anything. -/
abbrev PollLeaves (bound : Bool) (layers : List Snapshot) (rest : List Chain)
    (left : Option Future) : Claim :=
  Given (Suspends bound left) (givenBack layers left ++ rest)

/-- How things stand when a poll is over, whatever is left. -/
def PollLeft (bound : Bool) (layers : List Snapshot) (rest : List Chain) : Claim :=
  fun session own => ∃ left, PollLeaves bound layers rest left session own

theorem PollLeft.of_calm {session : Session} {own : List Chain}
    (known : Calm (layers.map Snapshot.chain ++ rest) session own) :
    PollLeft bound layers rest session own :=
  ⟨none, ⟨known.1, nofun⟩, known.2⟩

theorem PollLeaves.of_calm {session : Session} {own : List Chain} {value : Value}
    (known : Calm (layers.map Snapshot.chain ++ rest) session own) :
    PollLeaves bound layers rest (Progress.ready value).remaining? session own :=
  ⟨⟨known.1, nofun⟩, known.2⟩

namespace Transfers

theorem suspend (left : Option Future) {before after : Claim}
    (learns : ∀ session own, before session own → after { session with suspended := left } own) :
    Transfers id (Run.modify fun session => { session with suspended := left }) before
      (fun _ => after) final :=
  .untouched (fun _ => ⟨rfl, rfl, rfl, rfl, Nat.le_refl _, List.Subset.refl _⟩) learns

theorem pausing (left : Future) (fine : left.Balanced bound) :
    Transfers id (pausing left) (Given fact (left.references ++ rest))
      (fun progress => PollLeaves bound layers rest progress.remaining?) final :=
  .bind (suspend (some left) fun _ _ known =>
    ⟨⟨rfl, fun _ same => Option.some.inj same ▸ fine⟩, known.2⟩) fun _ =>
      .pure fun _ _ known => known

/-- What is awaited comes back, and the future pauses with it. -/
theorem awaiting (strand : Strand) {waiting : Future} (fine : strand.Balanced bound)
    (loose : waiting.Balanced false) :
    Transfers id (Script.pausing ⟨strand, waiting.strands⟩)
      (Given fact (waiting.references ++ (strand.held.flatMap Handle.references ++
        (strand.layers.map Snapshot.chain ++ rest))))
      (fun progress => PollLeaves bound layers rest progress.remaining?) final := by
  have left : Future.Balanced bound ⟨strand, waiting.strands⟩ :=
    ⟨fine, List.forall_mem_cons.mpr ⟨loose.outer, loose.awaited⟩⟩
  refine (pausing ⟨strand, waiting.strands⟩ left).of_start fun _ _ known => ⟨known.1, ?_⟩
  exact known.2.trans (Future.references_awaiting strand waiting rest).symm

theorem takeSuspended? :
    Transfers id takeSuspended? (PollLeft bound layers rest)
      (fun left => Given (fun session => session.Calm ∧ ∀ future ∈ left, future.Balanced bound)
        (givenBack layers left ++ rest)) final := by
  refine .reading fun session _ => ?_
  have clears : Transfers id (Run.modify fun session => { session with suspended := none })
      ((PollLeft bound layers rest).at session) (fun _ => Given (fun after => after.Calm ∧
        ∀ future ∈ session.suspended, future.Balanced bound)
        (givenBack layers session.suspended ++ rest)) final := by
    refine .suspend none ?_
    rintro _ own ⟨rfl, left, ⟨rfl, fine⟩, order⟩
    exact ⟨⟨rfl, fine⟩, order⟩
  exact clears.bind fun _ => .pure fun _ _ known => known

/-- What a poll that has panicked still owes is given up. -/
theorem abandon (future : Future) :
    Transfers id (abandon future) (PollLeft bound future.outer.layers rest) (fun _ => Calm rest)
      (Calm rest) := by
  refine Transfers.takeSuspended?.bind fun left => ?_
  cases left with
  | none =>
      exact (Transfers.dropAll future.outer.layers).of_start fun _ _ known => ⟨known.1.1, known.2⟩
  | some left => exact (Exchanges.dropFuture left).of_start fun _ _ known => ⟨known.1.1, known.2⟩

end Transfers

/-- An interpreter whose steps leave what they are given, and whose polls give back what
they owe. -/
structure Interpreter.Careful (interpreter : Interpreter) : Prop where
  step : ∀ id place step, Neutral id (interpreter.step place step)
  poll : ∀ id place (future : Future) rest, future.Balanced false →
    Transfers id (interpreter.poll place future) (Calm (future.references ++ rest))
      (fun progress => PollLeaves false future.outer.layers rest progress.remaining?)
      (PollLeft false future.outer.layers rest)

theorem Transfers.takeAwaited? {register : String} :
    Transfers id (takeAwaited? register) (Calm given)
      (fun found => Given (fun session => session.Calm ∧ ∀ future ∈ found, future.Balanced false)
        (referred found ++ given)) final := by
  refine Transfers.item? fun session found neat known => ?_
  cases found with
  | none => exact .pure fun _ _ known => ⟨⟨known.2.1, nofun⟩, known.2.2⟩
  | some item =>
      refine (Transfers.unbind known).bind fun _ => ?_
      have fine := neat.item known
      have takes (left : Future) (balanced : left.Balanced false) : Transfers id
          (Pure.pure (some left) : Run (Option Future))
          (Calm (left.snapshots.map Snapshot.chain ++ given))
          (fun found => Given
            (fun session => session.Calm ∧ ∀ future ∈ found, future.Balanced false)
            (referred found ++ given)) final := by
        refine .pure fun _ _ known => ⟨⟨known.1, fun _ same => Option.some.inj same ▸ balanced⟩, ?_⟩
        rw [referred, balanced.references_eq]
        exact known.2
      cases item with
      | future left => exact takes left fine
      | raw left => exact takes left fine
      | _ =>
          refine (Transfers.drop _).bind fun _ => .pure fun _ _ known => ?_
          exact ⟨⟨known.1, nofun⟩, known.2⟩

/-- The layers of a future are referred to all the while it is polled inside them. -/
theorem Transfers.insideLayers {act : Run α} {after : α → Claim} {future : Future}
    (body : Transfers id act (Calm (future.references ++ rest)) after
      (Calm (future.outer.layers.map Snapshot.chain ++ rest)))
    (owes : ∀ value session own, after value session own →
      PollLeft bound future.outer.layers rest session own) :
    Transfers id (Snapshot.runAll future.outer.layers act) (Calm (future.references ++ rest)) after
      (PollLeft bound future.outer.layers rest) := by
  refine Transfers.insideAll (body.conseq (fun _ _ known => known) (fun _ _ _ known => known)
    fun _ _ known => .of_calm known) (fun snapshot member session own known => .inr ?_) owes
  exact known.2.mem_iff.mpr (List.mem_append_left _ (Future.layer_mem member))

/-- Whatever can be started is a handle that is opened. -/
theorem Transfers.starting {kind : HandleKind} {register : String} {before : Claim}
    {next : Option (Run Handle) → Run α} {after : α → Claim}
    (rest : ∀ found, (∀ starting, found = some starting →
      ∃ opening : Opening, starting = opening.start) →
        Transfers id (next found) before after final) :
    Transfers id (starting? kind register >>= next) before after final := by
  have looked : starting? kind register >>= next = Run.item? register >>= fun item =>
      next (item.bind kind.starting?) := rfl
  rw [looked]
  refine Transfers.item? fun session found _ _ => .forget session <| rest _ fun starting same => ?_
  obtain ⟨item, -, started⟩ := Option.bind_eq_some_iff.mp same
  exact HandleKind.starting?_eq started

namespace Interpreter.Careful

variable {interpreter : Interpreter} (careful : interpreter.Careful)
include careful

/-- The one that awaits goes on with all it has, or gives up its handles. -/
theorem pollAwaited (id : ThreadId) (place : Place) (held : List Handle) (rest : List Chain)
    {future : Future} (fine : future.Balanced false) :
    Transfers id (pollAwaited interpreter place held future)
      (Calm (future.references ++ (held.flatMap Handle.references ++ rest)))
      (fun progress => Given (fun session => session.Calm ∧
          ∀ left ∈ progress.remaining?, left.Balanced false)
        (referred progress.remaining? ++
          (held.flatMap Handle.references ++ rest)))
      (Calm rest) := by
  have polls := (careful.poll id place future (held.flatMap Handle.references ++ rest) fine).onPanic
    (Transfers.abandon future)
  refine (polls.onPanic (Exchanges.finishAll held)).bind fun progress => ?_
  have clears : Transfers id (Run.modify fun session => { session with suspended := none })
      (PollLeaves false future.outer.layers (held.flatMap Handle.references ++ rest)
        progress.remaining?)
      (fun _ => Given (fun session => session.Calm ∧
          ∀ left ∈ progress.remaining?, left.Balanced false)
        (givenBack future.outer.layers progress.remaining? ++
          (held.flatMap Handle.references ++ rest))) (Calm rest) :=
    .suspend none fun _ _ known => ⟨⟨rfl, known.1.2⟩, known.2⟩
  refine clears.bind fun _ => ?_
  cases progress with
  | pending left => exact .pure fun _ _ known => known
  | ready value =>
      exact (Transfers.dropAll future.outer.layers).bind fun _ => .pure fun _ _ known => known

/-- Instructions are followed with the handles held accounted for at every one of them. -/
theorem follow (place : Place) (layers : List Snapshot) (rest : List Chain)
    (instructions : List Instruction) {skipped : Nat} {held : List Handle} {value : Value}
    (fine : Instruction.balanced bound (skipped + held.length) instructions = true) :
    Transfers id (follow interpreter place layers skipped held value instructions)
      (Calm (held.flatMap Handle.references ++ (layers.map Snapshot.chain ++ rest)))
      (fun progress => PollLeaves bound layers rest progress.remaining?)
      (Calm (layers.map Snapshot.chain ++ rest)) := by
  induction instructions generalizing skipped held value with
  | nil =>
      -- A body that is skipped would still have to end, and so would a handle.
      obtain ⟨rfl, rfl⟩ : skipped = 0 ∧ held = [] := by simpa [Instruction.balanced] using fine
      exact .pure fun _ _ known => .of_calm known
  | cons instruction later ih =>
      cases skipped with
      | succ skipped =>
          rw [Nat.succ_add] at fine
          cases instruction with
          | run label step => exact ih (by rw [Nat.succ_add]; exact fine)
          | pause => exact ih (by rw [Nat.succ_add]; exact fine)
          | await register => exact ih (by rw [Nat.succ_add]; exact fine)
          | hold kind register =>
              simp only [Instruction.balanced, Bool.and_eq_true] at fine
              exact ih (by rw [Nat.succ_add, Nat.succ_add]; exact fine.2)
          | unhold =>
              simp only [Instruction.balanced, Bool.and_eq_true] at fine
              exact ih fine.2
      | zero =>
          rw [Nat.zero_add] at fine
          cases instruction with
          | run label step =>
              have runs := (careful.step id (place.within label) step
                (held.flatMap Handle.references ++ (layers.map Snapshot.chain ++ rest))).holding
                (held.flatMap Handle.captors)
              exact (runs.onPanic (Exchanges.finishAll held)).bind fun value =>
                ih (by rw [Nat.zero_add]; exact fine)
          | pause =>
              have alone := Future.references_alone ⟨layers, later, value, held⟩ rest
              rw [← alone]
              exact Transfers.pausing _ ⟨fine, nofun⟩
          | await register =>
              have goes (value : Value) : Transfers id
                  (Script.follow interpreter place layers 0 held value later) _ _ _ :=
                ih (by rw [Nat.zero_add]; exact fine)
              refine Transfers.takeAwaited?.bind fun found => ?_
              cases found with
              | none => exact (goes _).of_start fun _ _ known => ⟨known.1.1, known.2⟩
              | some future =>
                  refine .of_fact (fun _ _ known => known.1.2 future rfl) fun loose => ?_
                  have polls := careful.pollAwaited id place held
                    (layers.map Snapshot.chain ++ rest) loose
                  refine (polls.of_start fun _ _ known => ⟨known.1.1, known.2⟩).bind
                    fun progress => ?_
                  cases progress with
                  | pending waiting =>
                      refine .of_fact (fun _ _ known => known.1.2 waiting rfl) fun loose => ?_
                      exact Transfers.awaiting ⟨layers, later, value, held⟩ fine loose
                  | ready value => exact (goes _).of_start fun _ _ known => ⟨known.1.1, known.2⟩
          | hold kind register =>
              simp only [Instruction.balanced, Bool.and_eq_true] at fine
              have skips (value : Value) : Transfers id
                  (Script.follow interpreter place layers 1 held value later) _ _ _ :=
                ih (by rw [Nat.add_comm]; exact fine.2)
              simp only [Script.follow]
              cases HandleKind.ofName? kind with
              | none => exact skips _
              | some kind =>
                  refine .starting fun found opens => ?_
                  cases found with
                  | none => exact skips _
                  | some starting =>
                      obtain ⟨opening, rfl⟩ := opens starting rfl
                      refine (Transfers.start opening).bind fun handle => ?_
                      rw [← List.append_assoc, ← List.flatMap_cons]
                      exact ih (by rw [Nat.zero_add]; exact fine.2)
          | unhold =>
              cases held with
              | nil => simp [Instruction.balanced] at fine
              | cons handle outer =>
                  simp only [List.length_cons, Instruction.balanced, Bool.and_eq_true] at fine
                  simp only [Script.follow, List.flatMap_cons, List.append_assoc]
                  refine ((Exchanges.finish handle).onPanic
                    (Exchanges.finishAll outer)).bind fun _ => ?_
                  exact ih (by rw [Nat.zero_add]; exact fine.2)

theorem advance (id : ThreadId) (place : Place) (rest : List Chain) {future : Future}
    (fine : future.Balanced bound) :
    Transfers id (advance interpreter place future) (Calm (future.references ++ rest))
      (fun progress => PollLeaves bound future.outer.layers rest progress.remaining?)
      (Calm (future.outer.layers.map Snapshot.chain ++ rest)) := by
  obtain ⟨⟨layers, later, value, held⟩, awaited⟩ := future
  have follows (value : Value) : Transfers id
      (Script.follow interpreter place layers 0 held value later) _ _ _ :=
    careful.follow place layers rest later (by rw [Nat.zero_add]; exact fine.outer)
  cases awaited with
  | nil =>
      rw [Future.references_alone]
      exact follows value
  | cons inner others =>
      have loose : Future.Balanced false ⟨inner, others⟩ :=
        ⟨fine.awaited inner (.head _), fun strand member => fine.awaited strand (.tail _ member)⟩
      have polls := careful.pollAwaited id place held (layers.map Snapshot.chain ++ rest) loose
      have parts := Future.references_awaiting ⟨layers, later, value, held⟩ ⟨inner, others⟩ rest
      refine (polls.of_start fun _ _ known =>
        ⟨known.1, known.2.trans parts⟩).bind fun progress => ?_
      cases progress with
      | pending waiting =>
          refine .of_fact (fun _ _ known => known.1.2 waiting rfl) fun loose => ?_
          exact Transfers.awaiting ⟨layers, later, value, held⟩ fine.outer loose
      | ready value => exact (follows value).of_start fun _ _ known => ⟨known.1.1, known.2⟩

/-- A poll gives back what it owes. -/
theorem pollInside (id : ThreadId) (place : Place) (rest : List Chain) {future : Future}
    (fine : future.Balanced bound) :
    Transfers id (pollInside interpreter place future) (Calm (future.references ++ rest))
      (fun progress => PollLeaves bound future.outer.layers rest progress.remaining?)
      (PollLeft bound future.outer.layers rest) :=
  .insideLayers (careful.advance id place rest fine) fun progress _ _ known =>
    ⟨progress.remaining?, known⟩

end Interpreter.Careful

/-! ## Polls by name -/

/-- A future that a thread keeps holds no more than it ends, and one in a register nothing. -/
def FutureHome.binds : FutureHome → Bool
  | .thread => true
  | .register => false

namespace Transfers

theorem take? {name : String} :
    Transfers id (FutureHome.take? name) (Calm given)
      (fun found => Given (fun session => session.Calm ∧
          ∀ named ∈ found, named.2.Balanced named.1.binds)
        (referred (found.map Prod.snd) ++ given)) final := by
  refine Transfers.futures fun session neat => ?_
  cases found : (session.futuresOf id).find? name with
  | some future =>
      have fine := (neat.futuresOf id).2 future (Table.mem_values_of_find? found)
      have removes : Transfers id (Run.removeFuture name) ((Calm given).at session)
          (fun _ => Calm (future.references ++ given)) final :=
        .removeFuture neat found fun calm => calm
      exact removes.bind fun _ => .pure fun _ _ known =>
        ⟨⟨known.1, fun named same => Option.some.inj same ▸ fine⟩, known.2⟩
  | none =>
      refine .forget session (Transfers.item? fun session item neat known => ?_)
      cases item with
      | none => exact .pure fun _ _ known => ⟨⟨known.2.1, nofun⟩, known.2.2⟩
      | some item =>
          cases item with
          | future left =>
              have fine : left.Balanced false := neat.item known
              refine (Transfers.unbind known).bind fun _ => .pure fun _ _ known => ?_
              refine ⟨⟨known.1, fun named same => Option.some.inj same ▸ fine⟩, ?_⟩
              rw [Option.map_some, referred, fine.references_eq]
              exact known.2
          | _ => exact .pure fun _ _ known => ⟨⟨known.2.1, nofun⟩, known.2.2⟩

theorem putBack (home : FutureHome) (name : String) {future : Future}
    (fine : future.Balanced home.binds) :
    Transfers id (home.putBack name future) (Calm (future.references ++ given))
      (fun _ => Calm given) (Calm given) := by
  cases home with
  | thread => exact Exchanges.keepFuture name fine
  | register =>
      have same : Item.references (.future future) = future.references :=
        (Future.Balanced.references_eq fine).symm
      rw [← same]
      exact Transfers.bindItem name fine

end Transfers

namespace Interpreter.Careful

variable {interpreter : Interpreter} (careful : interpreter.Careful)
include careful

theorem pollOnce (id : ThreadId) (place : Place) (name : String) :
    Neutral id (pollOnce interpreter place name) := by
  intro rest
  refine Transfers.take?.bind fun found => ?_
  cases found with
  | none => exact .pure fun _ _ known => ⟨known.1.1, known.2⟩
  | some named =>
      obtain ⟨home, future⟩ := named
      refine .of_fact (fun _ _ known => known.1.2 _ rfl) fun fine => ?_
      let taken := Calm (future.references ++ rest)
      refine Transfers.of_start (?_ : Transfers id _ taken _ _) fun _ _ known =>
        ⟨known.1.1, known.2⟩
      have clears : Transfers id
          (Run.modify fun session => { session with suspended := none }) taken
          (fun _ => taken) (Calm rest) :=
        .suspend none fun _ _ known => ⟨rfl, known.2⟩
      refine clears.bind fun _ => ?_
      let givenBack := PollLeft home.binds future.outer.layers rest
      let layers := Calm (future.outer.layers.map Snapshot.chain ++ rest)
      have polls : Transfers id (polling interpreter place future) taken
          (fun _ => givenBack) layers := by
        refine (careful.advance id place rest fine).bind fun progress => ?_
        have suspends : Transfers id
            (Run.modify fun session => { session with suspended := progress.remaining? })
            (PollLeaves home.binds future.outer.layers rest progress.remaining?)
            (fun _ => givenBack) layers :=
          .suspend _ fun _ _ known => ⟨progress.remaining?, ⟨rfl, known.1.2⟩, known.2⟩
        exact suspends.bind fun _ => .keep _
      have inside : Transfers id
          (Act.attempt (Snapshot.runAll future.outer.layers (polling interpreter place future)))
          taken (fun _ => givenBack) (Calm rest) :=
        (Transfers.insideLayers polls fun _ _ _ known => known).attempt
      refine inside.bind fun outcome => Transfers.takeSuspended?.bind fun left => ?_
      cases left with
      | none =>
          refine Transfers.bind ?_ fun _ => .conclude outcome
          exact (Transfers.dropAll future.outer.layers).of_start fun _ _ known =>
            ⟨known.1.1, known.2⟩
      | some left =>
          refine .of_fact (fun _ _ known => known.1.2 left rfl) fun fine => ?_
          refine Transfers.bind ?_ fun _ => .conclude outcome
          exact (Transfers.putBack home name fine).of_start fun _ _ known => ⟨known.1.1, known.2⟩

theorem pollUntil (id : ThreadId) (place : Place) (name : String) (attempts polls : Nat)
    (last : Value) : Neutral id (pollUntil interpreter place name attempts polls last) := by
  intro rest
  induction attempts generalizing polls last with
  | zero => exact .keep _
  | succ attempts ih =>
      refine (careful.pollOnce id place name rest).bind fun last => ?_
      split
      · exact ih (polls + 1) last
      · exact .keep _

end Interpreter.Careful

end Ambient.Script
