import Ambient.Script.Session

/-!
# Tidy scripts

A tidy script ends what it opens, innermost first, whether or not a panic passes.
Its scopes are those around a body, and the handles that a future holds up to its
next pause or the next future it awaits.  Named handles belong to their thread: a step
that starts one may find the name taken there, and a panic leaves it open.  A pile of
scopes ends earliest first when a panic passes, and a thread that is torn down has no
slots to put anything back into.  Such steps are not tidy.

What a script takes out of registers and runs has to be tidy as well.  There may be
anything under the names that are foreign to it.
-/

namespace Ambient.Script

variable {foreign : String → Bool}

/-! ## Steps -/

def CaptorStep.tidy (foreign : String → Bool) : CaptorStep → Bool
  | .release register => !foreign register
  | _ => true

def HandleStep.tidy : HandleStep → Bool
  | .inspect _ _ => true
  | _ => false

def ItemStep.tidy (foreign : String → Bool) : ItemStep → Bool
  | .rewrap register _ => !foreign register
  | .intoPlain register _ => !foreign register
  | .unwrap register _ => !foreign register
  | .wrapFuture register _ => !foreign register
  | _ => true

def InvokeStep.tidy (foreign : String → Bool) : InvokeStep → Bool
  | .callAgain register => !foreign register
  | .callOnce register _ => !foreign register
  | .poll register => !foreign register
  | .block register => !foreign register

mutual

/-- Whether a step is tidy, inside a future that holds a handle or not. -/
def Step.tidy (foreign : String → Bool) (holding : Bool) : Step → Bool
  | .captor step => step.tidy foreign
  | .handle step => step.tidy
  | .item step => step.tidy foreign
  | .invoke step => step.tidy foreign
  | .make _ _ _ onMessage => Step.allTidy foreign false onMessage
  | .scope _ _ body => Step.allTidy foreign false body
  | .deep _ _ _ _ => false
  | .wrap _ _ body => Step.allTidy foreign false body
  | .call register _ body => !foreign register && Step.allTidy foreign false body
  | .future _ body => Step.allTidy foreign false body
  | .localFuture name body => !foreign name && Step.allTidy foreign false body
  | .pause => !holding
  | .await register => !foreign register
  | .hold _ _ body => Step.allTidy foreign true body
  | .give _ => true
  | .raise _ => true
  | .sequence body => Step.allTidy foreign false body
  | .loop _ body => Step.allTidy foreign false body
  | .attempt body => Step.allTidy foreign false body
  | .thread body => Step.allTidy foreign false body
  | .worker _ body => Step.allTidy foreign false body
  | .teardown _ _ => false
  | .unknown => true

def Step.allTidy (foreign : String → Bool) (holding : Bool) : List Step → Bool
  | [] => true
  | step :: rest => step.tidy foreign holding && Step.allTidy foreign holding rest

end

/-- A step that is tidy where a handle is held is so everywhere. -/
theorem Step.tidy_of_holding {step : Step} {holding : Bool}
    (tidy : step.tidy foreign holding = true) : step.tidy foreign false = true := by
  cases step with
  | pause => rfl
  | _ => exact tidy

theorem Step.allTidy_append {front rest : List Step} {holding : Bool} :
    Step.allTidy foreign holding (front ++ rest) =
      (Step.allTidy foreign holding front && Step.allTidy foreign holding rest) := by
  induction front with
  | nil => rfl
  | cons step front ih => simp [Step.allTidy, ih, Bool.and_assoc]

/-! ## Futures -/

namespace Instruction

/-- The instructions after which some handles are held are tidy: every handle ends
before the next pause, before the next future that is awaited, and before the end. -/
def tidy (foreign : String → Bool) : Nat → List Instruction → Bool
  | held, [] => held = 0
  | held, .run _ step :: rest => step.tidy foreign false && tidy foreign held rest
  | held, .pause :: rest => held = 0 && tidy foreign held rest
  | held, .await register :: rest => !foreign register && held = 0 && tidy foreign held rest
  | held, .hold _ _ :: rest => tidy foreign (held + 1) rest
  | 0, .unhold :: _ => false
  | held + 1, .unhold :: rest => tidy foreign held rest

mutual

/-- Only a future that stays on its thread can hold a handle. -/
theorem tidy_ofStep (bound : Bool) (label : List String) (step : Step) {held : Nat}
    {rest : List Instruction} (bare : bound = true ∨ held = 0)
    (inside : step.tidy foreign (decide (0 < held)) = true)
    (after : tidy foreign held rest = true) :
    tidy foreign held (ofStep bound label step ++ rest) = true := by
  have run : tidy foreign held (.run label step :: rest) = true := by
    simp [tidy, Step.tidy_of_holding inside, after]
  cases step with
  | pause =>
      have none : held = 0 := by simpa [Step.tidy] using inside
      simpa [ofStep, tidy, none] using after
  | await register =>
      cases bound with
      | true => exact run
      | false =>
          have none : held = 0 := bare.resolve_left nofun
          have own : foreign register = false := by simpa [Step.tidy] using inside
          simpa [ofStep, tidy, none, own] using after
  | hold kind register body =>
      cases bound with
      | false => exact run
      | true =>
          have inner : Step.allTidy foreign (decide (0 < held + 1)) body = true := by
            simpa [Step.tidy] using inside
          have ended : tidy foreign (held + 1) (.unhold :: rest) = true := after
          have all := tidy_ofSteps true label 0 body (.inl rfl) inner ended
          simpa [ofStep, tidy] using all
  | _ => exact run

theorem tidy_ofSteps (bound : Bool) (label : List String) (index : Nat) (steps : List Step)
    {held : Nat} {rest : List Instruction} (bare : bound = true ∨ held = 0)
    (inside : Step.allTidy foreign (decide (0 < held)) steps = true)
    (after : tidy foreign held rest = true) :
    tidy foreign held (ofSteps bound label index steps ++ rest) = true := by
  cases steps with
  | nil => simpa [ofSteps] using after
  | cons step others =>
      simp only [Step.allTidy, Bool.and_eq_true] at inside
      rw [ofSteps, List.append_assoc]
      exact tidy_ofStep bound _ step bare inside.1
        (tidy_ofSteps bound label (index + 1) others bare inside.2 after)

end

/-- What follows instructions after which no handle is held. -/
theorem tidy_rest {front rest : List Instruction} {held : Nat}
    (all : tidy foreign held (front ++ rest) = true) (fine : tidy foreign held front = true) :
    tidy foreign 0 rest = true := by
  induction front generalizing held with
  | nil =>
      obtain rfl : held = 0 := by simpa [tidy] using fine
      exact all
  | cons instruction front ih =>
      cases instruction with
      | run label step =>
          simp only [List.cons_append, tidy, Bool.and_eq_true] at all fine
          exact ih all.2 fine.2
      | pause =>
          simp only [List.cons_append, tidy, Bool.and_eq_true] at all fine
          exact ih all.2 fine.2
      | await register =>
          simp only [List.cons_append, tidy, Bool.and_eq_true] at all fine
          exact ih all.2 fine.2
      | hold kind register => exact ih all fine
      | unhold =>
          cases held with
          | zero => simp [tidy] at fine
          | succ held => exact ih all fine

end Instruction

/-- A future between its polls: it holds nothing, and its instructions are tidy. -/
structure Strand.Tidy (foreign : String → Bool) (strand : Strand) : Prop where
  held : strand.held = []
  rest : Instruction.tidy foreign 0 strand.rest = true

namespace Future

def Tidy (foreign : String → Bool) (future : Future) : Prop :=
  ∀ strand ∈ future.strands, strand.Tidy foreign

variable {future : Future}

theorem tidy_ofSteps (bound : Bool) (snapshot : Snapshot) {body : List Step}
    (tidy : Step.allTidy foreign false body = true) :
    (ofSteps bound snapshot body).Tidy foreign := by
  have inside : Step.allTidy foreign (decide (0 < 0)) body = true := tidy
  have ended : Instruction.tidy foreign 0 [] = true := rfl
  have all := Instruction.tidy_ofSteps bound [] 0 body (.inr rfl) inside ended
  rw [List.append_nil] at all
  intro strand member
  obtain rfl := List.mem_singleton.mp member
  exact ⟨rfl, all⟩

theorem Tidy.outer (tidy : future.Tidy foreign) : future.outer.Tidy foreign :=
  tidy future.outer List.mem_cons_self

/-- Layers make no difference. -/
theorem Tidy.wrapIn (tidy : future.Tidy foreign) (snapshot : Snapshot) :
    (future.wrapIn snapshot).Tidy foreign :=
  List.forall_mem_cons.mpr ⟨⟨tidy.outer.held, tidy.outer.rest⟩, (List.forall_mem_cons.mp tidy).2⟩

theorem Tidy.unwrapped (tidy : future.Tidy foreign) : future.unwrapped.Tidy foreign :=
  List.forall_mem_cons.mpr ⟨⟨tidy.outer.held, tidy.outer.rest⟩, (List.forall_mem_cons.mp tidy).2⟩

theorem Tidy.bare (tidy : future.Tidy foreign) : future.bare.Tidy foreign :=
  List.forall_mem_cons.mpr ⟨⟨tidy.outer.held, tidy.outer.rest⟩, (List.forall_mem_cons.mp tidy).2⟩

theorem Tidy.held (tidy : future.Tidy foreign) : future.held = [] := by
  simp only [Future.held, List.flatMap_eq_nil_iff, List.mem_reverse]
  exact fun strand member => (tidy strand member).held

end Future

/-- What a poll leaves is tidy, inside the same layers. -/
def Progress.Tidy (foreign : String → Bool) (layers : List Snapshot) : Progress → Prop
  | .pending future => future.Tidy foreign ∧ future.outer.layers = layers
  | .ready _ => True

/-- The future that a pause leaves, if it holds nothing. -/
theorem Progress.tidy_paused {layers : List Snapshot} {rest : List Instruction}
    {value : Value} (fine : Instruction.tidy foreign 0 rest = true) {awaited : List Strand}
    (inner : ∀ strand ∈ awaited, strand.Tidy foreign) :
    Progress.Tidy foreign layers (.pending ⟨⟨layers, rest, value, []⟩, awaited⟩) :=
  ⟨List.forall_mem_cons.mpr ⟨⟨rfl, fine⟩, inner⟩, rfl⟩

/-! ## Sessions -/

def Action.tidy (foreign : String → Bool) : Action → Bool
  | .thunk body => Step.allTidy foreign false body
  | .function body => Step.allTidy foreign false body
  | .counter _ body => Step.allTidy foreign false body
  | .pointer => true

/-- What an item runs is tidy. -/
def Item.Tidy (foreign : String → Bool) : Item → Prop
  | .wrapped callable => callable.action.tidy foreign = true
  | .plain callable => callable.action.tidy foreign = true
  | .future left => left.Tidy foreign
  | .raw left => left.Tidy foreign
  | _ => True

/-- The futures in a table are tidy, those under foreign names apart. -/
def TidyFutures (foreign : String → Bool) (futures : Table String Future) : Prop :=
  ∀ name future, foreign name = false → futures.find? name = some future →
    future.Tidy foreign

/-- All that can be run in a session is tidy, up to what is under foreign names. -/
structure Session.Tidy (foreign : String → Bool) (session : Session) : Prop where
  receivers : ∀ captor receiver, session.receivers.find? captor = some receiver →
    Step.allTidy foreign false receiver.onMessage = true
  registers : ∀ name item, foreign name = false → session.registers.find? name = some item →
    item.Tidy foreign
  futures : ∀ thread, TidyFutures foreign (session.futuresOf thread)
  suspended : ∀ future, session.suspended = some future → future.Tidy foreign

/-- Between two sessions no thread has been spawned, no handle has been named, nothing has
been written down, and the foreign futures have stayed where they are. -/
structure Session.Beside (foreign : String → Bool) (session next : Session) : Prop where
  spawned : next.spawned = session.spawned
  handles : next.handles = session.handles
  history : next.history = session.history
  futures : ∀ thread name, foreign name = true →
    (next.futuresOf thread).find? name = (session.futuresOf thread).find? name

/-- A thread has neither a named handle nor a foreign future. -/
structure Session.Bare (foreign : String → Bool) (session : Session) (thread : ThreadId) :
    Prop where
  handles : session.handlesOf thread = []
  futures : ∀ name, foreign name = true → (session.futuresOf thread).find? name = none

namespace Session

theorem Bare.beside {session next : Session} {thread : ThreadId}
    (bare : session.Bare foreign thread) (beside : session.Beside foreign next) :
    next.Bare foreign thread where
  handles := by
    rw [handlesOf, beside.handles]
    exact bare.handles
  futures name apart := (beside.futures thread name apart).trans (bare.futures name apart)

theorem start_tidy : start.Tidy foreign :=
  ⟨nofun, nofun, nofun, nofun⟩

variable {session : Session}

theorem Tidy.insert (tidy : session.Tidy foreign) (name : String) {item : Item}
    (fine : item.Tidy foreign) :
    Tidy foreign { session with registers := session.registers.insert name item } :=
  { tidy with
    registers := by
      intro other found own lookup
      rw [Table.find?_insert] at lookup
      split at lookup
      · exact Option.some.inj lookup ▸ fine
      · exact tidy.registers other found own lookup }

theorem Tidy.erase (tidy : session.Tidy foreign) (name : String) :
    Tidy foreign { session with registers := session.registers.erase name } :=
  { tidy with
    registers := by
      intro other found own lookup
      rw [Table.find?_erase] at lookup
      split at lookup
      · contradiction
      · exact tidy.registers other found own lookup }

theorem Tidy.receive (tidy : session.Tidy foreign) (captor : CaptorId) {receiver : Receiver}
    (fine : Step.allTidy foreign false receiver.onMessage = true) :
    Tidy foreign { session with receivers := session.receivers.insert captor receiver } :=
  { tidy with
    receivers := by
      intro other found lookup
      rw [Table.find?_insert] at lookup
      split at lookup
      · exact Option.some.inj lookup ▸ fine
      · exact tidy.receivers other found lookup }

theorem futuresOf_setFutures (session : Session) (thread other : ThreadId)
    (futures : Table String Future) :
    (session.setFutures thread futures).futuresOf other =
      if thread = other then futures else session.futuresOf other := by
  by_cases same : thread = other <;> simp [futuresOf, setFutures, same]

theorem Tidy.setFutures (tidy : session.Tidy foreign) (thread : ThreadId)
    {futures : Table String Future} (fine : TidyFutures foreign futures) :
    (session.setFutures thread futures).Tidy foreign :=
  { tidy with
    futures := by
      intro other
      rw [futuresOf_setFutures]
      split
      · exact fine
      · exact tidy.futures other }

theorem Tidy.suspend (tidy : session.Tidy foreign) {left : Option Future}
    (fine : ∀ future, left = some future → future.Tidy foreign) :
    Tidy foreign { session with suspended := left } :=
  { tidy with suspended := fine }

theorem beside_setFutures {thread : ThreadId} {futures : Table String Future}
    (same : ∀ name, foreign name = true →
      futures.find? name = (session.futuresOf thread).find? name) :
    session.Beside foreign (session.setFutures thread futures) where
  spawned := rfl
  handles := rfl
  history := rfl
  futures other name apart := by
    rw [futuresOf_setFutures]
    split
    · next here => rw [same name apart, here]
    · rfl

end Session

end Ambient.Script
