import Ambient.Proofs.Conduct

/-!
# Acts that see no more than what is shown

A thread shows its slots and its chain, whether it has been torn down, and how many
crossers it has opened; how its slots are kept is not seen, and neither is the order in
which captors are referred to.  Two acts are similar if they cannot be told apart by
this: from processes that show the same they come to the same outcome, and to processes
that show the same again.  An act that is similar to itself is extensional.  All that
scopes and calls consist of is extensional, and so are all conducts.
-/

namespace Ambient

variable {Client α β : Type}

/-! ## What is shown -/

/-- Contexts that differ at most in the order in which captors are referred to. -/
structure Context.Same (here there : Context) : Prop where
  build : here.build = there.build
  thread : here.thread = there.thread
  unwinding : here.unwinding = there.unwinding
  held : here.held.Perm there.held

structure Thread.Same (thread other : Thread) : Prop where
  current : ∀ type, thread.current type = other.current type
  chain : thread.chain = other.chain
  opened : thread.opened = other.opened
  live : thread.live = other.live

/-- Processes that differ at most in how the slots of their threads are kept. -/
structure Process.Same (process other : Process Client) : Prop where
  threads : ∀ id, (process.thread id).Same (other.thread id)
  registry : process.registry = other.registry
  records : process.records = other.records
  client : process.client = other.client

namespace Context.Same

variable {here there : Context}

theorem refl (context : Context) : context.Same context :=
  ⟨rfl, rfl, rfl, .refl _⟩

theorem unwound (same : here.Same there) :
    Context.Same { here with unwinding := true } { there with unwinding := true } :=
  { same with unwinding := rfl }

theorem holding (same : here.Same there) {captors others : List CaptorId}
    (perm : captors.Perm others) :
    Context.Same { here with held := captors ++ here.held }
      { there with held := others ++ there.held } :=
  { same with held := perm.append same.held }

end Context.Same

namespace Thread.Same

variable {thread other : Thread}

theorem refl (thread : Thread) : thread.Same thread :=
  ⟨fun _ => rfl, rfl, rfl, rfl⟩

theorem setCurrent (same : thread.Same other) (type : CaptorType) (captor : Option CaptorId) :
    (thread.setCurrent type captor).Same (other.setCurrent type captor) where
  current shown := by simp only [Thread.current_setCurrent, same.live, same.current]
  chain := by simp only [Thread.chain_setCurrent, same.chain]
  opened := by simp only [Thread.opened_setCurrent, same.opened]
  live := by simp only [Thread.live_setCurrent, same.live]

theorem setChain (same : thread.Same other) (chain : Chain) :
    (thread.setChain chain).Same (other.setChain chain) where
  current shown := by simp only [Thread.current_setChain, same.current]
  chain := by simp only [Thread.chain_setChain, same.live]
  opened := by simp only [Thread.opened_setChain, same.opened]
  live := by simp only [Thread.live_setChain, same.live]

theorem countOpened (same : thread.Same other) :
    Thread.Same { thread with opened := thread.opened + 1 }
      { other with opened := other.opened + 1 } :=
  { same with opened := congrArg (· + 1) same.opened }

end Thread.Same

namespace Process.Same

variable {process other : Process Client}

theorem refl (process : Process Client) : process.Same process :=
  ⟨fun _ => .refl _, rfl, rfl, rfl⟩

theorem setThread (same : process.Same other) (id : ThreadId) {thread thread' : Thread}
    (alike : thread.Same thread') :
    (process.setThread id thread).Same (other.setThread id thread') where
  threads shown := by
    rw [thread_setThread, thread_setThread]
    split
    · exact alike
    · exact same.threads shown
  registry := same.registry
  records := same.records
  client := same.client

theorem write (same : process.Same other) (record : Record) :
    (process.write record).Same (other.write record) :=
  { same with records := congrArg (record :: ·) same.records }

theorem moved (same : process.Same other) {id : ThreadId} {last last' : Process Client}
    {found more : List Misuse} {after after' : Thread}
    (first : Moved id process last found after) (second : Moved id other last' more after')
    (own : after.Same after') (shown : ThreadId) :
    (last.thread shown).Same (last'.thread shown) := by
  by_cases here : id = shown
  · subst here
    rwa [first.own, second.own]
  · rw [first.others shown here, second.others shown here]
    exact same.threads shown

end Process.Same

/-! ## Similar acts -/

namespace Act

/-- Acts that cannot be told apart by what is shown. -/
def Similar (act other : Act Client α) : Prop :=
  ∀ ⦃here there : Context⦄ ⦃process process' : Process Client⦄,
    here.Same there → process.Same process' →
      (act here process).1 = (other there process').1 ∧
        (act here process).2.Same (other there process').2

def Extensional (act : Act Client α) : Prop :=
  act.Similar act

namespace Similar

variable {act act' body body' : Act Client α} {close close' : Act Client Unit}
  {next next' : α → Act Client β}

theorem bind (first : act.Similar act') (rest : ∀ value, (next value).Similar (next' value)) :
    (act >>= next).Similar (act' >>= next') := by
  intro here there process process' contexts processes
  rcases first contexts processes with ⟨outcomes, left⟩
  rw [bind_apply, bind_apply]
  generalize act here process = run at outcomes left ⊢
  generalize act' there process' = run' at outcomes left ⊢
  rcases run with ⟨outcome, last⟩
  rcases run' with ⟨outcome', last'⟩
  obtain rfl : outcome = outcome' := outcomes
  cases outcome with
  | value value => exact rest value contexts left
  | panic panic => exact ⟨rfl, left⟩

theorem onPanic (first : body.Similar body') (last : close.Similar close') :
    (body.onPanic close).Similar (body'.onPanic close') := by
  intro here there process process' contexts processes
  rcases first contexts processes with ⟨outcomes, left⟩
  unfold Act.onPanic
  generalize body here process = run at outcomes left ⊢
  generalize body' there process' = run' at outcomes left ⊢
  rcases run with ⟨outcome, middle⟩
  rcases run' with ⟨outcome', middle'⟩
  obtain rfl : outcome = outcome' := outcomes
  cases outcome with
  | value value => exact ⟨rfl, left⟩
  | panic panic => exact ⟨rfl, (last contexts.unwound left).2⟩

theorem ensuring (first : body.Similar body') (last : close.Similar close') :
    (body.ensuring close).Similar (body'.ensuring close') := by
  rw [ensuring_eq_onPanic, ensuring_eq_onPanic]
  apply (first.onPanic last).bind
  intro value
  apply last.bind
  exact fun _ _ _ _ _ _ processes => ⟨rfl, processes⟩

theorem attempt (same : act.Similar act') : (Act.attempt act).Similar (Act.attempt act') := by
  intro here there process process' contexts processes
  rcases same contexts processes with ⟨outcomes, left⟩
  exact ⟨congrArg Outcome.value outcomes, left⟩

/-- It does not matter in which order captors are referred to. -/
theorem holding (same : act.Similar act') {captors others : List CaptorId}
    (perm : captors.Perm others) :
    (Act.holding captors act).Similar (Act.holding others act') :=
  fun _ _ _ _ contexts processes => same (contexts.holding perm) processes

end Similar

/-! ## Extensional acts -/

namespace Extensional

variable {act : Act Client α} {next : α → Act Client β}

theorem pure (value : α) : (pure value : Act Client α).Extensional :=
  fun _ _ _ _ _ processes => ⟨rfl, processes⟩

theorem raise (panic : Panic) : (raise panic : Act Client α).Extensional :=
  fun _ _ _ _ _ processes => ⟨rfl, processes⟩

theorem bind (first : act.Extensional) (rest : ∀ value, (next value).Extensional) :
    (act >>= next).Extensional :=
  Similar.bind first rest

/-- An act that looks where it takes place goes on with what does not depend on the order
in which captors are referred to. -/
theorem context {next : Context → Act Client β}
    (same : ∀ ⦃here there : Context⦄, here.Same there → next here = next there)
    (rest : ∀ context, (next context).Extensional) : (Act.context >>= next).Extensional := by
  intro here there process process' contexts processes
  change (next here here process).1 = (next there there process').1 ∧
    (next here here process).2.Same (next there there process').2
  rw [← same contexts]
  exact rest here contexts processes

/-- An act that looks at its thread goes on with what that shows. -/
theorem thread {next : Thread → Act Client β}
    (same : ∀ ⦃thread other : Thread⦄, thread.Same other → next thread = next other)
    (rest : ∀ thread, (next thread).Extensional) : (Act.thread >>= next).Extensional := by
  intro here there process process' contexts processes
  have seen : next (process.thread here.thread) = next (process'.thread there.thread) := by
    rw [contexts.thread]
    exact same (processes.threads _)
  change (next (process.thread here.thread) here process).1 =
      (next (process'.thread there.thread) there process').1 ∧
    (next (process.thread here.thread) here process).2.Same
      (next (process'.thread there.thread) there process').2
  rw [← seen]
  exact rest _ contexts processes

theorem client : (Act.client : Act Client Client).Extensional :=
  fun _ _ _ _ _ processes => ⟨congrArg Outcome.value processes.client, processes⟩

theorem modifyClient (change : Client → Client) :
    (Act.modifyClient change : Act Client Unit).Extensional :=
  fun _ _ _ _ _ processes => ⟨rfl, { processes with client := congrArg change processes.client }⟩

theorem modifyRegistry (change : Registry → Registry) :
    (Act.modifyRegistry change : Act Client Unit).Extensional :=
  fun _ _ _ _ _ processes =>
    ⟨rfl, { processes with registry := congrArg change processes.registry }⟩

theorem modifyThread {change : Thread → Thread}
    (same : ∀ ⦃thread other : Thread⦄, thread.Same other → (change thread).Same (change other)) :
    (Act.modifyThread change : Act Client Unit).Extensional := by
  intro here there process process' contexts processes
  unfold Act.modifyThread
  rw [contexts.thread]
  constructor
  · rfl
  · exact processes.setThread there.thread (same (processes.threads there.thread))

/-! ### Records -/

theorem describe (record : Record) : (Act.describe record : Act Client Unit).Extensional := by
  intro here there process process' contexts processes
  unfold Act.describe
  rw [contexts.build]
  cases there.build with
  | debug => exact ⟨rfl, processes.write record⟩
  | release => exact ⟨rfl, processes⟩

theorem report (misuse : Misuse) : (Act.report misuse : Act Client Unit).Extensional := by
  intro here there process process' contexts processes
  unfold Act.report
  rw [contexts.build, contexts.unwinding]
  dsimp only
  split <;> exact ⟨rfl, processes.write _⟩

theorem unless_report (fine : Prop) [Decidable fine] (misuse : Misuse) :
    (do unless fine do Act.report misuse : Act Client Unit).Extensional := by
  by_cases fine
  case pos passed => simpa [passed] using pure ()
  case neg failed => simpa [failed] using report misuse

/-! ### Slots and chains -/

theorem current (type : CaptorType) :
    (Act.current type : Act Client (Option CaptorId)).Extensional :=
  thread (fun _ _ same => congrArg Pure.pure (same.current type)) fun _ => pure _

theorem replaceCurrent (type : CaptorType) (captor : Option CaptorId) :
    (Act.replaceCurrent type captor : Act Client (Option CaptorId)).Extensional :=
  (current type).bind fun _ =>
    (modifyThread fun _ _ same => same.setCurrent type captor).bind fun _ => pure _

theorem chain : (Act.chain : Act Client Chain).Extensional :=
  thread (fun _ _ same => congrArg Pure.pure same.chain) fun _ => pure _

theorem hold (chain : Chain) : (Act.hold chain : Act Client Unit).Extensional :=
  modifyRegistry _

theorem release (chain : Chain) : (Act.release chain : Act Client Unit).Extensional :=
  modifyRegistry _

theorem replaceChain (chain : Chain) : (Act.replaceChain chain : Act Client Chain).Extensional := by
  apply thread
  · intro thread other same
    rw [same.live, same.chain]
  · intro thread
    apply (modifyThread fun _ _ same => same.setChain chain).bind
    intro _
    cases thread.live with
    | true => exact pure _
    | false => exact (release chain).bind fun _ => pure _

/-! ### Scopes -/

theorem startScope (kind : ScopeKind) (type : CaptorType) (installed : Option CaptorId) :
    (Scope.start kind type installed : Act Client Scope).Extensional :=
  (replaceCurrent type installed).bind fun _ => pure _

theorem finishScope (scope : Scope) : (scope.finish : Act Client Unit).Extensional :=
  (replaceCurrent _ _).bind fun _ => unless_report _ _

theorem finishScopes (scopes : List Scope) :
    (Scope.finishAll scopes : Act Client Unit).Extensional := by
  induction scopes with
  | nil => exact pure ()
  | cons scope rest ih => exact Similar.ensuring (finishScope scope) ih

theorem freshId : (CrosserScope.freshId : Act Client CrosserId).Extensional := by
  apply context
  · intro here there same
    rw [same.thread]
  · intro here
    apply thread
    · intro thread other same
      rw [same.opened]
    · exact fun _ => (modifyThread fun _ _ same => same.countOpened).bind fun _ => pure _

theorem startCrosser (type : CaptorType) (captor : CaptorId) :
    (CrosserScope.start type captor : Act Client CrosserScope).Extensional := by
  refine freshId.bind fun id => chain.bind fun outer => (modifyRegistry _).bind fun _ => ?_
  refine (hold _).bind fun _ => (replaceChain _).bind fun replaced => ?_
  exact (release replaced).bind fun _ => (startScope ..).bind fun _ => pure _

theorem finishChain (scope : CrosserScope) : (scope.finishChain : Act Client Unit).Extensional :=
  (hold _).bind fun _ => (replaceChain _).bind fun _ => (release _).bind fun _ =>
    (release _).bind fun _ => unless_report _ _

theorem start (opening : Opening) : (opening.start : Act Client Handle).Extensional := by
  cases opening with
  | capture type captor => exact (startScope ..).bind fun _ => pure _
  | crossing bridge => exact (startScope ..).bind fun _ => pure _
  | crosser type captor => exact (startCrosser type captor).bind fun _ => pure _

theorem finish (handle : Handle) : (handle.finish : Act Client Unit).Extensional := by
  cases handle with
  | slot scope => exact finishScope scope
  | crosser scope => exact Similar.ensuring (finishChain scope) (finishScope scope.slot)

/-! ### Calls -/

theorem capture : (Snapshot.capture : Act Client Snapshot).Extensional :=
  chain.bind fun chain => (hold chain).bind fun _ => pure _

theorem install (crossers : List Crosser) :
    (Snapshot.install crossers : Act Client (List Scope)).Extensional := by
  induction crossers with
  | nil => exact pure []
  | cons crosser rest ih => exact (startScope ..).bind fun _ => ih.bind fun _ => pure _

theorem startDelegation (chain : Chain) :
    (Delegation.start chain : Act Client Delegation).Extensional :=
  (hold chain).bind fun _ => (hold chain).bind fun _ =>
    (replaceChain chain).bind fun _ => pure _

theorem finishDelegation (delegation : Delegation) :
    (delegation.finish : Act Client Unit).Extensional :=
  (replaceChain _).bind fun _ => (release _).bind fun _ => (release _).bind fun _ =>
    unless_report _ _

theorem call (snapshot : Snapshot) (body : act.Extensional) : (snapshot.run act).Extensional := by
  unfold Snapshot.run
  split
  · exact body
  · refine (describe _).bind fun _ => (install _).bind fun scopes => ?_
    refine (startDelegation _).bind fun delegation => ?_
    exact Similar.ensuring
      (Similar.ensuring (Similar.holding body (.refl _)) (finishDelegation delegation))
      (finishScopes scopes)

end Extensional

end Act

/-- No conduct tells more than what is shown. -/
theorem Conduct.run_extensional (conduct : Conduct) : conduct.run.Extensional := by
  induction conduct with
  | rest => exact .pure ()
  | andThen first second front back => exact front.bind fun _ => back
  | start opening => exact (Act.Extensional.start opening).bind fun _ => .modifyClient _
  | finish position =>
      refine Act.Extensional.client.bind fun desk => ?_
      split
      · exact .pure ()
      · exact (Act.Extensional.modifyClient _).bind fun _ => .finish _
  | forget position =>
      refine Act.Extensional.client.bind fun desk => ?_
      split
      · exact .pure ()
      · exact .modifyClient _
  | capture => exact Act.Extensional.capture.bind fun _ => .modifyClient _
  | receive snapshot =>
      apply Act.Extensional.context
      · intro here there same
        rw [same.thread]
      · intro here
        apply Act.Extensional.thread
        · intro thread other same
          rw [same.opened]
        · intro thread
          split
          · exact .modifyClient _
          · exact .pure ()
  | call position body ih => exact Act.Extensional.client.bind fun desk => .call _ ih
  | raise message => exact .raise _
  | attempt body ih => exact Act.Extensional.bind (Act.Similar.attempt ih) fun _ => .pure ()
  | ensuring body close first last => exact Act.Similar.ensuring first last

end Ambient
