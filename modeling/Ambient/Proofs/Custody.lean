import Ambient.Proofs.Counts
import Ambient.Proofs.Reentry

/-!
# The custody of references

The chain of every thread is a reference, and so is what scopes, snapshots and calls in
progress keep.  An act is given some references and leaves others behind; the registry
counts all there are before it, and all there are after it.  `Settles` says so of an
act, of its value and of a panic, whatever else is referred to besides.
-/

namespace Ambient

variable {Client α β : Type}

namespace Thread

/-- A thread that is torn down has nothing in its slots. -/
def Clear (thread : Thread) : Prop :=
  thread.live = false → thread.slots = .empty

variable {thread : Thread}

theorem Clear.setCurrent (clear : thread.Clear) (type : CaptorType) (captor : Option CaptorId) :
    (thread.setCurrent type captor).Clear := by
  cases live : thread.live with
  | true => simp [Clear, Thread.setCurrent, live]
  | false => simpa [Thread.setCurrent, live] using clear

theorem Clear.setChain (clear : thread.Clear) (chain : Chain) : (thread.setChain chain).Clear := by
  cases live : thread.live with
  | true => simp [Clear, Thread.setChain, live]
  | false => simpa [Thread.setChain, live] using clear

end Thread

namespace Process

/-- The references of the threads to their chains. -/
def chains (process : Process Client) : List Chain :=
  process.threads.values.map Thread.chain

/-- The registry counts the references of the threads, those that the client owns and the
others given, and it has no crosser that is still to be opened.  No thread is there twice,
and none that is torn down has anything left. -/
structure Custody (owns : Client → List Chain) (process : Process Client)
    (others : List Chain) : Prop where
  distinct : process.threads.keys.Nodup
  clear : ∀ thread ∈ process.threads.values, thread.Clear
  counts : process.registry.Counts (process.chains ++ (owns process.client ++ others))
  numbered : ∀ id, (process.registry.find? id).isSome →
    id.index < (process.thread id.thread).opened

variable {owns : Client → List Chain} {process : Process Client} {others : List Chain}

theorem start_custody {client : Client} (none : owns client = []) :
    (start client).Custody owns [] where
  distinct := List.nodup_nil
  clear := nofun
  counts := by
    rw [show (start client).client = client from rfl, none]
    exact .empty
  numbered := nofun

namespace Custody

theorem perm (custody : process.Custody owns others) {same : List Chain}
    (order : others.Perm same) : process.Custody owns same :=
  { custody with counts := custody.counts.perm ((order.append_left _).append_left _) }

theorem cons_nil : process.Custody owns ([] :: others) ↔ process.Custody owns others := by
  have front : (process.chains ++ (owns process.client ++ [] :: others)).Perm
      ([] :: (process.chains ++ (owns process.client ++ others))) := by
    rw [← List.append_assoc, ← List.append_assoc]
    exact List.perm_middle
  constructor
  · intro custody
    exact { custody with counts := Registry.Counts.cons_nil.mp (custody.counts.perm front) }
  · intro custody
    exact { custody with counts := (Registry.Counts.cons_nil.mpr custody.counts).perm front.symm }

/-- It does not matter whether the client owns a reference or someone else does. -/
theorem client (custody : process.Custody owns others) {owns' : Client → List Chain}
    {client : Client} {rest : List Chain}
    (moved : (owns process.client ++ others).Perm (owns' client ++ rest)) :
    ({ process with client := client } : Process Client).Custody owns' rest :=
  ⟨custody.distinct, custody.clear, custody.counts.perm (moved.append_left _), custody.numbered⟩

theorem has (custody : process.Custody owns others) {chain : Chain} (member : chain ∈ others) :
    process.registry.Has chain :=
  custody.counts.has chain (List.mem_append_left _
    (List.mem_append_right _ (List.mem_append_right _ member)))

/-- The chain around a crosser that is referred to is referred to as well. -/
theorem has_outer (custody : process.Custody owns others) {crosser : Crosser} {outer : Chain}
    (member : crosser :: outer ∈ others) : process.registry.Has outer := by
  obtain ⟨holders, found⟩ := custody.has member
  exact custody.counts.has outer (custody.counts.outer_mem found)

/-- A thread refers to its chain. -/
theorem has_chain (custody : process.Custody owns others) (id : ThreadId) :
    process.registry.Has (process.thread id).chain := by
  unfold Process.thread
  cases found : process.threads.find? id with
  | none => trivial
  | some thread =>
      have member : thread.chain ∈ process.chains :=
        List.mem_map_of_mem (Table.mem_values_of_find? found)
      exact custody.counts.has _ (List.mem_append_left _ (List.mem_append_left _ member))

theorem clear_thread (custody : process.Custody owns others) (id : ThreadId) :
    (process.thread id).Clear := by
  unfold Process.thread
  cases found : process.threads.find? id with
  | none => exact nofun
  | some thread => exact custody.clear thread (Table.mem_values_of_find? found)

theorem absent (custody : process.Custody owns others) {id : CrosserId}
    (fresh : (process.thread id.thread).opened ≤ id.index) :
    process.registry.find? id = none := by
  cases found : process.registry.find? id with
  | none => rfl
  | some registration =>
      exact absurd (custody.numbered id (by simp [found])) (Nat.not_lt.mpr fresh)

/-- A thread is put in the place of what it was, which gives up one chain for another. -/
theorem setThread (custody : process.Custody owns others) {id : ThreadId} {thread : Thread}
    {rest : List Chain} (opened : (process.thread id).opened ≤ thread.opened)
    (clear : thread.Clear)
    (moved : (thread.chain :: rest).Perm ((process.thread id).chain :: others)) :
    (process.setThread id thread).Custody owns rest where
  distinct := Table.nodup_keys_insert custody.distinct id thread
  clear other member := by
    rcases Table.mem_values_of_insert member with rfl | old
    · exact clear
    · exact custody.clear other old
  counts := by
    have inserted := (process.threads.values_insert id thread).map Thread.chain
    rw [List.map_append, List.map_cons] at inserted
    unfold Process.thread at moved
    have shifted (first : Chain) (client rest : List Chain) :
        (first :: (process.chains ++ (client ++ rest))).Perm
          (process.chains ++ (client ++ first :: rest)) := by
      rw [← List.append_assoc, ← List.append_assoc]
      exact List.perm_middle.symm
    cases found : process.threads.find? id with
    | none =>
        -- A thread that was never mentioned refers to nothing.
        rw [found] at inserted moved
        have more := (Registry.Counts.cons_nil.mpr custody.counts).perm (shifted _ _ _)
        refine more.perm ((moved.symm.append_left _).append_left _ |>.trans ?_)
        exact (shifted _ _ _).symm.trans (inserted.symm.append_right _)
    | some old =>
        rw [found] at inserted moved
        refine custody.counts.perm ((List.perm_cons old.chain).mp ?_)
        refine (shifted _ _ _).trans ((moved.symm.append_left _).append_left _ |>.trans ?_)
        exact (shifted _ _ _).symm.trans (inserted.symm.append_right _)
  numbered other registered := by
    rw [thread_setThread]
    split
    · rename_i same
      exact Nat.lt_of_lt_of_le (same ▸ custody.numbered other registered) opened
    · exact custody.numbered other registered

/-- A reference is made to what is there to refer to. -/
theorem hold (custody : process.Custody owns others) {chain : Chain}
    (has : process.registry.Has chain) :
    ({ process with registry := process.registry.hold chain } : Process Client).Custody owns
      (chain :: others) where
  distinct := custody.distinct
  clear := custody.clear
  counts := by
    refine (custody.counts.hold has).perm ?_
    rw [← List.append_assoc, ← List.append_assoc]
    exact List.perm_middle.symm
  numbered id registered := by
    refine custody.numbered id ?_
    cases chain with
    | nil => exact registered
    | cons crosser outer =>
        obtain ⟨holders, found⟩ := has
        by_cases same : crosser.id = id
        · simp [← same, found]
        · simpa [Registry.hold, same] using registered

/-- A reference is given up. -/
theorem release {chain : Chain} (custody : process.Custody owns (chain :: others)) :
    ({ process with registry := process.registry.release chain } : Process Client).Custody owns
      others := by
  have counts : process.registry.Counts
      (chain :: (process.chains ++ (owns process.client ++ others))) := by
    refine custody.counts.perm ?_
    rw [← List.append_assoc, ← List.append_assoc]
    exact List.perm_middle
  refine ⟨custody.distinct, custody.clear, counts.release,
    fun id registered => custody.numbered id ?_⟩
  obtain ⟨registration, found⟩ := Option.isSome_iff_exists.mp registered
  obtain ⟨holders, before⟩ := counts.find?_release found
  simp [before]

/-- A crosser that its thread has just counted refers to what is around it. -/
theorem enroll (custody : process.Custody owns others) {crosser : Crosser} {outer : Chain}
    (fresh : process.registry.find? crosser.id = none)
    (counted : crosser.id.index < (process.thread crosser.id.thread).opened)
    (has : process.registry.Has outer) :
    ({ process with registry := process.registry.enroll crosser outer } : Process Client).Custody
      owns ((crosser :: outer) :: others) where
  distinct := custody.distinct
  clear := custody.clear
  counts := by
    refine (custody.counts.enroll fresh has).perm ?_
    rw [← List.append_assoc, ← List.append_assoc]
    exact List.perm_middle.symm
  numbered id registered := by
    by_cases same : crosser.id = id
    · exact same ▸ counted
    · rw [Registry.enroll, Registry.hold, Registry.find?_assign, if_neg same] at registered
      exact (custody.hold has).numbered id registered

end Custody

end Process

/-- What an act leaves behind, by how it has ended. -/
def Outcome.owing (after : α → List Chain) (lost : List Chain) : Outcome α → List Chain
  | .value result => after result
  | .panic _ => lost

namespace Act

/-- The act is given some references, and leaves others behind with its value or, if it
panics, those that are lost then. -/
def Settles (owns : Client → List Chain) (act : Act Client α) (before : List Chain)
    (after : α → List Chain) (lost : List Chain) : Prop :=
  ∀ (context : Context) (process : Process Client) (others : List Chain),
    process.Custody owns (before ++ others) →
      (act context process).2.Custody owns ((act context process).1.owing after lost ++ others)

namespace Settles

variable {owns : Client → List Chain} {act : Act Client α} {next : α → Act Client β}
  {before lost rest : List Chain} {after : α → List Chain} {last : β → List Chain}

/-! ## Putting acts together -/

theorem pure (value : α) (same : before.Perm (after value)) :
    Settles owns (Pure.pure value) before after lost :=
  fun _ _ others custody => custody.perm (same.append_right others)

/-- Nothing is done with what the act is given. -/
theorem keep (value : α) : Settles owns (Pure.pure value) before (fun _ => before) lost :=
  .pure value (.refl before)

theorem bind (first : Settles owns act before after lost)
    (second : ∀ value, Settles owns (next value) (after value) last lost) :
    Settles owns (act >>= next) before last lost := by
  intro context process others custody
  have middle := first context process others custody
  rw [Act.bind_apply]
  cases run : act context process with
  | mk outcome left =>
      rw [run] at middle
      cases outcome with
      | value value => exact second value context left others middle
      | panic panic => exact middle

theorem perm {before' lost' : List Chain} {after' : α → List Chain}
    (settles : Settles owns act before after lost) (start : before'.Perm before)
    (value : ∀ value, (after value).Perm (after' value)) (panic : lost.Perm lost') :
    Settles owns act before' after' lost' := by
  intro context process others custody
  have left := settles context process others (custody.perm (start.append_right others))
  refine left.perm (List.Perm.append_right others ?_)
  cases (act context process).1 with
  | value result => exact value result
  | panic => exact panic

/-- A close that settles what the body has in any case. -/
theorem ensuring {close : Act Client Unit}
    (body : Settles owns act before (fun _ => rest) rest)
    (closes : Settles owns close rest (fun _ => lost) lost) :
    Settles owns (act.ensuring close) before (fun _ => lost) lost := by
  intro context process others custody
  have middle := body context process others custody
  obtain ⟨place, -, run⟩ := ensuring_process act close context process
  have left := closes place (act context process).2 others
    (by cases outcome : (act context process).1 <;> rw [outcome] at middle <;> exact middle)
  rw [run]
  refine left.perm (List.Perm.append_right others ?_)
  cases (close place (act context process).2).1 <;>
    cases (act.ensuring close context process).1 <;> exact .refl _

theorem attempt (settles : Settles owns act before after lost) :
    Settles owns (Act.attempt act) before (Outcome.owing after lost) rest :=
  fun context process others custody => settles context process others custody

/-! ## Single acts -/

/-- An act that reads some of what there is. -/
theorem of_still {see : Context → Process Client → α}
    (still : ∀ context process, act context process = (.value (see context process), process))
    (before lost : List Chain) : Settles owns act before (fun _ => before) lost :=
  fun context process others custody => by rwa [still]

theorem current (type : CaptorType) :
    Settles owns (Act.current type : Act Client _) before (fun _ => before) lost :=
  .of_still (fun _ _ => rfl) before lost

theorem describe (record : Record) :
    Settles owns (Act.describe record : Act Client Unit) before (fun _ => before) lost := by
  rintro ⟨build, _, _, _⟩ process others custody
  cases build with
  | debug => exact ⟨custody.distinct, custody.clear, custody.counts, custody.numbered⟩
  | release => exact custody

theorem report (misuse : Misuse) :
    Settles owns (Act.report misuse : Act Client Unit) before (fun _ => before) before := by
  intro context process others custody
  unfold Act.report
  dsimp only
  split <;> exact ⟨custody.distinct, custody.clear, custody.counts, custody.numbered⟩

theorem unless_report (fine : Prop) [Decidable fine] (misuse : Misuse) :
    Settles owns (do unless fine do Act.report misuse : Act Client Unit) before
      (fun _ => before) before := by
  by_cases fine
  case pos passed => simpa [passed] using Settles.keep ()
  case neg failed => simpa [failed] using Settles.report misuse

theorem hold {chain : Chain} (has : chain ∈ before) :
    Settles owns (Act.hold chain : Act Client Unit) before (fun _ => chain :: before) lost :=
  fun _ _ _ custody => custody.hold (custody.has (List.mem_append_left _ has))

/-- Whoever refers to a crosser may refer to what is around it. -/
theorem hold_outer {crosser : Crosser} {outer : Chain} (has : crosser :: outer ∈ before) :
    Settles owns (Act.hold outer : Act Client Unit) before (fun _ => outer :: before) lost :=
  fun _ _ _ custody => custody.hold (custody.has_outer (List.mem_append_left _ has))

theorem release (chain : Chain) :
    Settles owns (Act.release chain : Act Client Unit) (chain :: before) (fun _ => before) lost :=
  fun _ _ _ custody => custody.release

/-- A thread changes, but not its chain. -/
theorem modifyThread {change : Thread → Thread}
    (chain : ∀ thread, (change thread).chain = thread.chain)
    (opened : ∀ thread, thread.opened ≤ (change thread).opened)
    (clear : ∀ thread, thread.Clear → (change thread).Clear) :
    Settles owns (Act.modifyThread change : Act Client Unit) before (fun _ => before) lost :=
  fun context process others custody =>
    custody.setThread (opened _) (clear _ (custody.clear_thread _)) (by rw [chain]; exact .refl _)

theorem replaceCurrent (type : CaptorType) (captor : Option CaptorId) :
    Settles owns (Act.replaceCurrent type captor : Act Client _) before (fun _ => before) lost :=
  (Settles.current type).bind fun _ =>
    (Settles.modifyThread (by simp) (by simp) fun _ clear => clear.setCurrent type captor).bind
      fun _ => .keep _

/-- The thread takes over a reference and gives its own away. -/
theorem replaceChain (chain : Chain) :
    Settles owns (Act.replaceChain chain : Act Client _) (chain :: before)
      (fun replaced => replaced :: before) lost := by
  intro context process others custody
  let thread := process.thread context.thread
  cases live : thread.live with
  | true =>
      have replaced : Act.replaceChain chain context process =
          (.value thread.chain, process.setThread context.thread (thread.setChain chain)) := by
        simp only [Act.replaceChain, Act.bind_apply, Act.thread, Act.modifyThread, thread, live,
          if_true]
        rfl
      rw [replaced]
      refine custody.setThread (by simp [thread])
        ((custody.clear_thread context.thread).setChain chain) ?_
      rw [Thread.chain_setChain, if_pos live]
      exact .swap _ _ _
  | false =>
      have given : Act.replaceChain chain context process =
          (.value thread.chain,
            { process.setThread context.thread (thread.setChain chain) with
              registry := process.registry.release chain }) := by
        simp only [Act.replaceChain, Act.bind_apply, Act.thread, Act.modifyThread, thread, live]
        rfl
      -- A thread without slots neither has a chain nor takes one.
      have none : thread.chain = [] := by simp [Thread.chain, live]
      have same : thread.setChain chain = thread := by simp [Thread.setChain, live]
      rw [given, none, same]
      have still := custody.setThread (Nat.le_refl thread.opened)
        (custody.clear_thread context.thread) (.refl _)
      exact Process.Custody.cons_nil.mpr still.release

/-- A thread that is torn down gives its chain up. -/
theorem tearDown : Settles owns (Act.tearDown : Act Client Unit) before (fun _ => before) lost := by
  intro context process others custody
  let thread := process.thread context.thread
  -- The chain that the thread no longer has is in other hands until it is given up.
  have torn : (process.setThread context.thread thread.tornDown).Custody owns
      (thread.chain :: (before ++ others)) :=
    (Process.Custody.cons_nil.mpr custody).setThread (Nat.le_refl thread.opened) (fun _ => rfl)
      (.swap thread.chain [] (before ++ others))
  exact torn.release

end Settles

end Act

open Act (Settles)

section

variable {owns : Client → List Chain} {before lost rest : List Chain}

/-! ## Scopes -/

namespace Scope

theorem start_settles (kind : ScopeKind) (type : CaptorType) (installed : Option CaptorId) :
    Settles owns (start kind type installed : Act Client Scope) before (fun _ => before) lost :=
  (Settles.replaceCurrent type installed).bind fun _ => .keep _

theorem finish_settles (scope : Scope) :
    Settles owns (scope.finish : Act Client Unit) before (fun _ => before) before :=
  (Settles.replaceCurrent scope.type scope.previous).bind fun _ => .unless_report _ _

theorem finishAll_settles (scopes : List Scope) :
    Settles owns (finishAll scopes : Act Client Unit) before (fun _ => before) before := by
  induction scopes with
  | nil => exact .keep _
  | cons scope rest ih => exact scope.finish_settles.ensuring ih

end Scope

theorem Bridge.build_settles (type : CaptorType) :
    Settles owns (build type : Act Client Bridge) before (fun _ => before) lost :=
  (Settles.current type).bind fun _ => (Settles.describe _).bind fun _ => .keep _

namespace CrosserScope

/-- A crosser that is opened is referred to by its scope and by its thread. -/
theorem start_settles (type : CaptorType) (captor : CaptorId) :
    Settles owns (start type captor : Act Client CrosserScope) before
      (fun scope => scope.node :: before) lost := by
  intro context process others custody
  let thread := process.thread context.thread
  let crosser : Crosser := ⟨⟨context.thread, thread.opened⟩, type, captor⟩
  let counted := process.setThread context.thread { thread with opened := thread.opened + 1 }
  have chain : (counted.thread context.thread).chain = thread.chain := by
    simp [counted, Thread.chain]
  -- What follows once the crosser is enrolled is all that deals with references.
  have rest : Settles owns (do
      Act.hold (crosser :: thread.chain)
      let replaced ← Act.replaceChain (crosser :: thread.chain)
      Act.release replaced
      let slot ← Scope.start .capture type (some captor)
      return (⟨crosser, thread.chain, slot⟩ : CrosserScope) : Act Client CrosserScope)
      ((crosser :: thread.chain) :: before) (fun scope => scope.node :: before) lost :=
    (Settles.hold List.mem_cons_self).bind fun _ =>
      (Settles.replaceChain _).bind fun replaced => (Settles.release replaced).bind fun _ =>
        (Scope.start_settles .capture type (some captor)).bind fun slot =>
          Settles.pure (⟨crosser, thread.chain, slot⟩ : CrosserScope) (.refl _)
  have numbered : counted.Custody owns (before ++ others) :=
    custody.setThread (Nat.le_succ thread.opened) (custody.clear_thread context.thread) (.refl _)
  have enrolled : ({ counted with registry := counted.registry.enroll crosser thread.chain } :
      Process Client).Custody owns ((crosser :: thread.chain) :: (before ++ others)) :=
    numbered.enroll (custody.absent (Nat.le_refl thread.opened)) (by simp [counted, crosser])
      (custody.has_chain context.thread)
  have started : start type captor context process =
      (do
        Act.hold (crosser :: thread.chain)
        let replaced ← Act.replaceChain (crosser :: thread.chain)
        Act.release replaced
        let slot ← Scope.start .capture type (some captor)
        return (⟨crosser, thread.chain, slot⟩ : CrosserScope) : Act Client CrosserScope) context
      { counted with registry := counted.registry.enroll crosser thread.chain } := by
    rw [← chain]
    rfl
  rw [started]
  exact rest context _ others enrolled

theorem finishChain_settles (scope : CrosserScope) :
    Settles owns (scope.finishChain : Act Client Unit) (scope.node :: before) (fun _ => before)
      before :=
  (Settles.hold_outer List.mem_cons_self).bind fun _ =>
    (Settles.replaceChain scope.outer).bind fun found => (Settles.release found).bind fun _ =>
      (Settles.release scope.node).bind fun _ => .unless_report _ _

end CrosserScope

namespace Handle

/-- What a handle refers to until it is finished. -/
def references : Handle → List Chain
  | .slot _ => []
  | .crosser scope => [scope.node]

theorem finish_settles (handle : Handle) :
    Settles owns (handle.finish : Act Client Unit) (handle.references ++ before)
      (fun _ => before) before := by
  cases handle with
  | slot scope => exact scope.finish_settles
  | crosser scope => exact scope.finishChain_settles.ensuring scope.slot.finish_settles

end Handle

theorem Opening.start_settles (opening : Opening) :
    Settles owns (opening.start : Act Client Handle) before
      (fun handle => handle.references ++ before) lost := by
  cases opening with
  | capture type captor =>
      exact (Scope.start_settles .capture type (some captor)).bind fun scope =>
        Settles.pure (Handle.slot scope) (.refl _)
  | crossing bridge =>
      exact (Scope.start_settles .crossing bridge.type bridge.captor).bind fun scope =>
        Settles.pure (Handle.slot scope) (.refl _)
  | crosser type captor =>
      exact (CrosserScope.start_settles type captor).bind fun scope =>
        Settles.pure (Handle.crosser scope) (.refl _)

/-! ## Snapshots and calls -/

namespace Delegation

/-- What a call refers to besides its snapshot. -/
def references (delegation : Delegation) : List Chain :=
  [delegation.chain, delegation.previous]

theorem start_settles {chain : Chain} (has : chain ∈ before) :
    Settles owns (start chain : Act Client Delegation) before
      (fun delegation => delegation.references ++ before) lost := by
  refine (Settles.hold has).bind fun _ => (Settles.hold List.mem_cons_self).bind fun _ => ?_
  exact (Settles.replaceChain chain).bind fun previous =>
    Settles.pure (⟨chain, previous⟩ : Delegation) (.swap _ _ _)

theorem finish_settles (delegation : Delegation) :
    Settles owns (delegation.finish : Act Client Unit) (delegation.references ++ before)
      (fun _ => before) before := by
  have finished : Settles owns (delegation.finish : Act Client Unit)
      (delegation.previous :: delegation.chain :: before) (fun _ => before) before :=
    (Settles.replaceChain delegation.previous).bind fun found =>
      (Settles.release found).bind fun _ => (Settles.release delegation.chain).bind fun _ =>
        .unless_report _ _
  exact finished.perm (.swap _ _ _) (fun _ => .refl _) (.refl _)

end Delegation

namespace Snapshot

/-- A snapshot refers to the chain of the thread. -/
theorem capture_settles :
    Settles owns (capture : Act Client Snapshot) before (fun taken => taken.chain :: before) lost :=
  fun context _ _ custody => custody.hold (custody.has_chain context.thread)

theorem install_settles (crossers : List Crosser) :
    Settles owns (install crossers : Act Client (List Scope)) before (fun _ => before) lost := by
  induction crossers with
  | nil => exact .keep _
  | cons crosser rest ih =>
      exact (Scope.start_settles .crossing crosser.type (some crosser.captor)).bind fun _ =>
        ih.bind fun _ => .keep _

/-- Inside a call the snapshot stays with whoever has it. -/
theorem enter_settles {snapshot : Snapshot} (innermost : Crosser) (has : snapshot.chain ∈ before) :
    Settles owns (snapshot.enter innermost : Act Client _) before
      (fun entered => entered.2.references ++ before) lost :=
  (Settles.describe _).bind fun _ => (install_settles _).bind fun scopes =>
    (Delegation.start_settles has).bind fun delegation =>
      Settles.pure (scopes, delegation) (.refl _)

end Snapshot

end

end Ambient
