import Ambient.Proofs.Block
import Ambient.Proofs.Conduct

/-!
# The first handle that ends out of order

As long as every handle of a type that ends is the latest one open, the slot holds
what the latest one installed and the chain starts with the latest crosser.  The
end of a handle looks at nothing else, so it can tell whether the handle is the
latest one only by what that one installed.  An end that comes too early is found
there and then, unless a later handle shows the same captor in its place.
-/

namespace Ambient

/-! ## What handles of one type cover -/

/-- What a thread shows to the handles of a type. -/
structure Front where
  slot : Option CaptorId
  chain : Chain
deriving DecidableEq, Repr

def Thread.front (thread : Thread) (type : CaptorType) : Front :=
  ⟨thread.current type, thread.chain⟩

namespace Handle

/-- What a thread shows once the handle is open. -/
def cover (front : Front) : Handle → Front
  | .slot scope => ⟨scope.installed, front.chain⟩
  | .crosser scope => ⟨scope.slot.installed, scope.node⟩

/-- The handle was opened where a thread showed this, and puts it back. -/
def Over (type : CaptorType) (front : Front) : Handle → Prop
  | .slot scope => scope.type = type ∧ scope.previous = front.slot
  | .crosser scope =>
      scope.slot.type = type ∧ scope.slot.previous = front.slot ∧ scope.outer = front.chain

end Handle

namespace Front

/-- Handles cover what a thread showed at first, the latest in front. -/
def under (base : Front) : List Handle → Front
  | [] => base
  | latest :: earlier => latest.cover (base.under earlier)

/-- Every handle was opened over those behind it. -/
def Stacked (type : CaptorType) (base : Front) : List Handle → Prop
  | [] => True
  | latest :: earlier => latest.Over type (base.under earlier) ∧ base.Stacked type earlier

end Front

theorem Opening.front_entered (opening : Opening) (id : ThreadId) {thread : Thread}
    (live : thread.live) :
    (opening.handle id thread).Over opening.type (thread.front opening.type) ∧
      (opening.entered id thread).front opening.type =
        (opening.handle id thread).cover (thread.front opening.type) := by
  cases opening with
  | capture type captor =>
      refine ⟨⟨rfl, rfl⟩, ?_⟩
      simp [entered, Thread.front, Opening.type, handle, Handle.cover, live]
  | crossing bridge =>
      refine ⟨⟨rfl, rfl⟩, ?_⟩
      simp [entered, Thread.front, Opening.type, handle, Handle.cover, live]
  | crosser type captor =>
      refine ⟨⟨rfl, rfl, rfl⟩, ?_⟩
      simp [entered, CrosserScope.entered, CrosserScope.ofThread, CrosserScope.node,
        Thread.front, Opening.type, handle, Handle.cover, live]

/-- The latest handle finds what it has installed, and puts back what it covers. -/
theorem Handle.front_closed {handle : Handle} {type : CaptorType} {front : Front}
    {thread : Thread} (live : thread.live) (atop : handle.Over type front)
    (shown : thread.front type = handle.cover front) :
    handle.faults thread = [] ∧ (handle.closed thread).front type = front := by
  cases handle with
  | slot scope =>
      rcases atop with ⟨rfl, previous⟩
      obtain ⟨held, linked⟩ := Front.mk.inj shown
      refine ⟨Scope.faults_eq_nil.mpr held, ?_⟩
      simp [Thread.front, closed, Scope.closed, live, previous, linked]
  | crosser scope =>
      rcases atop with ⟨rfl, previous, outer⟩
      obtain ⟨held, linked⟩ := Front.mk.inj shown
      refine ⟨List.append_eq_nil_iff.mpr ⟨?_, Scope.faults_eq_nil.mpr held⟩, ?_⟩
      · exact CrosserScope.chainFaults_eq_nil.mpr linked
      · simp [Thread.front, closed, Scope.closed, live, previous, outer]

/-! ## When a handle below the latest is taken for it -/

namespace Front

variable {type : CaptorType} {base : Front} {above below : List Handle} {handle : Handle}

theorem Stacked.of_append (stacked : base.Stacked type (above ++ below)) :
    base.Stacked type below := by
  induction above with
  | nil => exact stacked
  | cons latest earlier ih => exact ih stacked.2

/-- Handles without crosser leave the chain as it is. -/
theorem chain_under_of_slots (slots : ∀ later ∈ above, later.crosser? = none)
    (below : List Handle) :
    (base.under (above ++ below)).chain = (base.under below).chain := by
  induction above with
  | nil => rfl
  | cons latest earlier ih =>
      have rest := ih fun later member => slots later (List.mem_cons_of_mem _ member)
      cases latest with
      | slot scope => exact rest
      | crosser scope =>
          exact absurd (slots (.crosser scope) List.mem_cons_self) (by simp [Handle.crosser?])

/-- Handles never shorten the chain, and a crosser makes it longer. -/
theorem length_chain_under (stacked : base.Stacked type (above ++ below)) :
    (base.under below).chain.length +
        (above.filter fun later => later.crosser?.isSome).length =
      (base.under (above ++ below)).chain.length := by
  induction above with
  | nil => simp
  | cons latest earlier ih =>
      have rest := ih stacked.2
      cases latest with
      | slot scope => simpa [under, Handle.cover, Handle.crosser?] using rest
      | crosser scope =>
          have around : scope.outer = (base.under (earlier ++ below)).chain := stacked.1.2.2
          have longer : (base.under (.crosser scope :: (earlier ++ below))).chain.length =
              (base.under (earlier ++ below)).chain.length + 1 :=
            congrArg (fun outer => List.length (scope.crosser :: outer)) around
          rw [List.filter_cons_of_pos (by rfl), List.cons_append, longer, List.length_cons,
            ← Nat.add_assoc, rest]

end Front

/-- Below later handles the chain still starts with a crosser if none of them is
one, and otherwise it is longer. -/
theorem Front.chain_under_eq_iff {type : CaptorType} {base : Front} {above below : List Handle}
    {scope : CrosserScope} (stacked : base.Stacked type (above ++ .crosser scope :: below)) :
    (base.under (above ++ .crosser scope :: below)).chain = scope.node ↔
      ∀ later ∈ above, later.crosser? = none := by
  constructor
  · intro linked later member
    have counted := length_chain_under stacked
    rw [linked] at counted
    have none : (above.filter fun later => later.crosser?.isSome).length = 0 :=
      Nat.add_left_cancel counted
    simpa using List.filter_eq_nil_iff.mp (List.eq_nil_of_length_eq_zero none) later member
  · intro slots
    rw [chain_under_of_slots slots]
    rfl

/-- A handle is masked by later ones if the latest of them shows the same as it
does and, in case it is a crosser, none of them is one. -/
def Handle.Masked (handle : Handle) (later : List Handle) : Prop :=
  later.head?.map (·.scope.installed) = some handle.scope.installed ∧
    (handle.crosser?.isSome → ∀ other ∈ later, other.crosser? = none)

instance (handle : Handle) (later : List Handle) : Decidable (handle.Masked later) :=
  inferInstanceAs (Decidable (_ ∧ (_ → _)))

theorem Handle.Over.type_eq {type : CaptorType} {front : Front} {handle : Handle}
    (atop : handle.Over type front) : handle.scope.type = type := by
  cases handle with
  | slot scope => exact atop.1
  | crosser scope => exact atop.1

theorem Front.slot_under_cons (base : Front) (latest : Handle) (earlier : List Handle) :
    (base.under (latest :: earlier)).slot = latest.scope.installed := by
  cases latest <;> rfl

/-- The end of a handle below later ones finds nothing exactly if they mask it. -/
theorem Handle.faults_eq_nil_iff_masked {type : CaptorType} {base : Front}
    {above below : List Handle} {handle : Handle} {thread : Thread}
    (stacked : base.Stacked type (above ++ handle :: below))
    (shown : thread.front type = base.under (above ++ handle :: below)) (later : above ≠ []) :
    handle.faults thread = [] ↔ handle.Masked above := by
  obtain ⟨latest, earlier, rfl⟩ := List.exists_cons_of_ne_nil later
  have own : handle.scope.type = type := stacked.of_append.1.type_eq
  have held : thread.current type = latest.scope.installed :=
    (congrArg Front.slot shown).trans (base.slot_under_cons latest _)
  have linked : thread.chain = _ := congrArg Front.chain shown
  cases handle with
  | slot scope =>
      have own : scope.type = type := own
      rw [faults, Scope.faults_eq_nil, own, held]
      simp [Masked, crosser?, Handle.scope]
  | crosser scope =>
      have own : scope.slot.type = type := own
      rw [faults, List.append_eq_nil_iff, CrosserScope.chainFaults_eq_nil, Scope.faults_eq_nil,
        own, held, linked, Front.chain_under_eq_iff stacked]
      simp only [Masked, crosser?, Handle.scope, List.head?_cons, Option.map_some,
        Option.some.injEq, Option.isSome_some, forall_const]
      exact And.comm

/-! ## Turns -/

/-- A handle that has not ended.  One that is forgotten never will. -/
structure Pending where
  handle : Handle
  forgotten : Bool
deriving DecidableEq, Repr

/-- The handles that have not ended, the latest in front. -/
abbrev Pile := List Pending

namespace Pile

def handles (pile : Pile) : List Handle :=
  pile.map (·.handle)

def forget (pile : Pile) (position : Nat) : Pile :=
  pile.modify position fun pending => { pending with forgotten := true }

theorem handles_forget (pile : Pile) (position : Nat) :
    (pile.forget position).handles = pile.handles := by
  induction pile generalizing position with
  | nil => cases position <;> rfl
  | cons pending rest ih =>
      cases position with
      | zero => rfl
      | succ position => simpa [handles, forget] using ih position

end Pile

/-- What a thread can do with handles.  They are counted from the latest one. -/
inductive Turn where
  | start (opening : Opening)
  | finish (position : Nat)
  | forget (position : Nat)
deriving DecidableEq, Repr

namespace Turn

def run : Turn → Act Pile Unit
  | .start opening => do
      let handle ← opening.start
      Act.modifyClient (⟨handle, false⟩ :: ·)
  | .finish position => do
      match (← Act.client)[position]? with
      | some ⟨handle, false⟩ =>
          Act.modifyClient (·.eraseIdx position)
          handle.finish
      | _ => pure ()
  | .forget position => Act.modifyClient (Pile.forget · position)

def runAll : List Turn → Act Pile Unit
  | [] => pure ()
  | turn :: rest => do
      turn.run
      runAll rest

/-- A turn about handles of one type that ends none but the latest. -/
def Orderly (type : CaptorType) : Turn → Prop
  | .start opening => opening.type = type
  | .finish position => position = 0
  | .forget _ => True

end Turn

/-- All handles have been opened one over the other, and the thread shows it. -/
structure Process.Piled (type : CaptorType) (base : Front) (id : ThreadId)
    (process : Process Pile) : Prop where
  live : (process.thread id).live
  stacked : base.Stacked type process.client.handles
  shown : (process.thread id).front type = base.under process.client.handles

namespace Turn

variable {type : CaptorType} {base : Front} {context : Context} {process : Process Pile}

theorem run_start (opening : Opening) (context : Context) (process : Process Pile) :
    (start opening).run context process =
      (.value (),
        { (opening.start context process).2 with
          client :=
            ⟨opening.handle context.thread (process.thread context.thread), false⟩ ::
              process.client }) := by
  obtain ⟨outcome, moved⟩ := opening.start_moves context.thread
    (process.thread context.thread) context process rfl rfl
  rw [run, Act.bind_of_value outcome, ← moved.client]
  rfl

theorem run_finish {position : Nat} {handle : Handle} (context : Context)
    (found : process.client[position]? = some ⟨handle, false⟩) :
    (finish position).run context process =
      handle.finish context { process with client := process.client.eraseIdx position } := by
  simp only [run, Act.bind_apply, Act.client, found]
  rfl

/-- The end of the latest handle finds nothing and uncovers the one before it. -/
theorem run_finish_latest {latest : Handle} {earlier : Pile}
    (piled : process.Piled type base context.thread)
    (pile : process.client = ⟨latest, false⟩ :: earlier) :
    ((finish 0).run context process).1 = .value () ∧
      ((finish 0).run context process).2.misuses = process.misuses ∧
      ((finish 0).run context process).2.Piled type base context.thread := by
  obtain ⟨live, stacked, shown⟩ := piled
  rw [pile] at stacked shown
  obtain ⟨silent, uncovered⟩ := latest.front_closed live stacked.1 shown
  let next : Process Pile := { process with client := earlier }
  have acts : (finish 0).run context process = latest.finish context next := by
    have found : process.client[0]? = some ⟨latest, false⟩ := by simp [pile]
    rw [run_finish context found, pile]
    rfl
  obtain ⟨outcome, moved⟩ := latest.finish_moves context.thread
    (process.thread context.thread) context next rfl rfl
  rw [silent] at outcome moved
  rw [acts]
  refine ⟨outcome, moved.misuses.trans (List.append_nil _), ?_, ?_, ?_⟩
  · rw [moved.own, Handle.live_closed]
    exact live
  · rw [moved.client]
    exact stacked.2
  · rw [moved.own, moved.client]
    exact uncovered

/-- An orderly turn finds nothing and keeps the handles piled. -/
theorem run_orderly {turn : Turn} (orderly : turn.Orderly type)
    (piled : process.Piled type base context.thread) :
    (turn.run context process).1 = .value () ∧
      (turn.run context process).2.misuses = process.misuses ∧
      (turn.run context process).2.Piled type base context.thread := by
  cases turn with
  | start opening =>
      obtain rfl : opening.type = type := orderly
      have moved := (opening.start_moves context.thread
        (process.thread context.thread) context process rfl rfl).2
      obtain ⟨atop, shown⟩ := opening.front_entered context.thread piled.live
      rw [run_start]
      refine ⟨rfl, moved.misuses.trans (List.append_nil _), ?_, ⟨?_, piled.stacked⟩, ?_⟩
      · exact moved.own ▸ (opening.live_entered _ _).trans piled.live
      · exact piled.shown ▸ atop
      · change ((opening.start context process).2.thread context.thread).front _ = _
        rw [moved.own, shown, piled.shown]
        rfl
  | finish position =>
      obtain rfl : position = 0 := orderly
      cases pile : process.client with
      | nil =>
          simp only [run, Act.bind_apply, Act.client, pile]
          exact ⟨rfl, rfl, piled⟩
      | cons latest earlier =>
          rcases latest with ⟨handle, _ | _⟩
          · exact run_finish_latest piled pile
          -- A forgotten handle cannot be ended.
          · simp only [run, Act.bind_apply, Act.client, pile]
            exact ⟨rfl, rfl, piled⟩
  | forget position =>
      have same := process.client.handles_forget position
      refine ⟨rfl, rfl, piled.live, ?_, ?_⟩
      · exact same.symm ▸ piled.stacked
      · exact piled.shown.trans (congrArg base.under same.symm)

theorem runAll_orderly {turns : List Turn} (orderly : ∀ turn ∈ turns, turn.Orderly type)
    (piled : process.Piled type base context.thread) :
    (runAll turns context process).1 = .value () ∧
      (runAll turns context process).2.misuses = process.misuses ∧
      (runAll turns context process).2.Piled type base context.thread := by
  induction turns generalizing process with
  | nil => exact ⟨rfl, rfl, piled⟩
  | cons turn rest ih =>
      obtain ⟨outcome, silent, next⟩ := run_orderly (orderly turn List.mem_cons_self) piled
      obtain ⟨outcome', silent', last⟩ :=
        ih (fun other member => orderly other (List.mem_cons_of_mem _ member)) next
      rw [runAll, Act.bind_of_value outcome]
      exact ⟨outcome', silent'.trans silent, last⟩

/-- What the end of a handle records, whether it is the latest one or not. -/
theorem misuses_finish {position : Nat} {handle : Handle} (context : Context)
    (found : process.client[position]? = some ⟨handle, false⟩) :
    ((finish position).run context process).2.misuses =
      process.misuses ++ handle.faults (process.thread context.thread) := by
  let next : Process Pile := { process with client := process.client.eraseIdx position }
  rw [run_finish context found]
  exact (handle.finish_moves context.thread (process.thread context.thread) context next
    rfl rfl).2.misuses

/-- While every handle of a type that ends is the latest one that has not ended,
no misuse is recorded.  The first end of another handle is recorded there and then,
except in exactly one case: the latest handle shows the same as the one that ends,
and this one is no crosser or the only one among itself and the later ones. -/
theorem first_disorder_silent_iff_masked (type : CaptorType) (turns : List Turn)
    (orderly : ∀ turn ∈ turns, turn.Orderly type) (context : Context)
    (process : Process Pile) (live : (process.thread context.thread).live)
    (none : process.client = []) :
    let result := runAll turns context process
    result.1 = .value () ∧ result.2.misuses = process.misuses ∧
      ∀ (position : Nat) (handle : Handle),
        result.2.client[position]? = some ⟨handle, false⟩ →
          let last := ((finish position).run context result.2).2
          (position = 0 → last.misuses = result.2.misuses) ∧
          (0 < position → (last.misuses = result.2.misuses ↔
            handle.Masked (result.2.client.handles.take position))) := by
  intro result
  let base := (process.thread context.thread).front type
  have start : process.Piled type base context.thread := by
    refine ⟨live, ?_, ?_⟩ <;> rw [none]
    · exact trivial
    · rfl
  obtain ⟨outcome, silent, piled⟩ := runAll_orderly orderly start
  refine ⟨outcome, silent, fun position handle found => ?_⟩
  intro last
  have recorded : last.misuses = result.2.misuses ↔
      handle.faults (result.2.thread context.thread) = [] := by
    rw [misuses_finish context found, List.append_right_eq_self]
  refine ⟨?_, fun later => ?_⟩
  · rintro rfl
    have orderly : (finish 0).Orderly type := rfl
    exact (run_orderly orderly piled).2.1
  · have listed : result.2.client.handles[position]? = some handle := by
      simp [Pile.handles, found]
    obtain ⟨bound, rfl⟩ := List.getElem?_eq_some_iff.mp listed
    let pile := result.2.client.handles
    have split : pile.take position ++ pile[position] :: pile.drop (position + 1) = pile := by
      rw [← List.drop_eq_getElem_cons bound, List.take_append_drop]
    have above : pile.take position ≠ [] := by
      rw [ne_eq, List.take_eq_nil_iff]
      rintro (rfl | empty)
      · exact Nat.lt_irrefl 0 later
      · have bound : position < pile.length := bound
        rw [empty] at bound
        exact Nat.not_lt_zero position bound
    have stacked : base.Stacked type pile := piled.stacked
    have shown : (result.2.thread context.thread).front type = base.under pile := piled.shown
    rw [← split] at stacked shown
    rw [recorded]
    exact Handle.faults_eq_nil_iff_masked stacked shown above

/-- A captor in two crossers, and between them in a scope.  The scope is masked by
the crosser opened last, and the first crosser is not. -/
theorem first_disorder_silent_iff_masked_thrice :
    let type : CaptorType := ⟨"Log"⟩
    let crosser : Turn := .start (.crosser type "log")
    let turns : List Turn := [crosser, .start (.capture type "log"), crosser]
    let context : Context := ⟨.release, .main, false, []⟩
    let result := (runAll turns context (.start [])).2
    result.misuses = [] ∧ ((finish 1).run context result).2.misuses = result.misuses ∧
      ((finish 2).run context result).2.misuses ≠ result.misuses := by
  intro type crosser turns context result
  have orderly : ∀ turn ∈ turns, turn.Orderly type := by
    simp [turns, crosser, Orderly, Opening.type]
  obtain ⟨-, silent, ends⟩ :=
    first_disorder_silent_iff_masked type turns orderly context (.start []) rfl rfl
  let scope : Handle := .slot ⟨.capture, type, some "log", some "log"⟩
  let first : Handle := .crosser (.ofThread .main .fresh type "log")
  have middle : result.client[1]? = some ⟨scope, false⟩ := by decide
  have bottom : result.client[2]? = some ⟨first, false⟩ := by decide
  refine ⟨silent, ?_, fun unnoticed => ?_⟩
  · exact ((ends 1 scope middle).2 (by decide)).mpr (by decide)
  · have masked := ((ends 2 first bottom).2 (by decide)).mp unnoticed
    exact absurd masked (by decide)

/-- A captor in two scopes, of which the first is ended first: nothing is recorded,
although all turns before were orderly and the handle is not the latest one. -/
theorem first_disorder_unrecorded :
    let type : CaptorType := ⟨"Log"⟩
    let scope : Turn := .start (.capture type "log")
    let context : Context := ⟨.debug, .main, false, []⟩
    let result := (runAll [scope, scope] context (.start [])).2
    (∀ turn ∈ [scope, scope], turn.Orderly type) ∧
      result.client[1]? = some ⟨.slot ⟨.capture, type, some "log", none⟩, false⟩ ∧
      ((finish 1).run context result).2.misuses = [] := by
  intro type scope context result
  refine ⟨by simp [scope, Orderly, Opening.type], by decide, by decide⟩

end Turn

end Ambient
