import Ambient.Proofs.Lexical
import Mathlib.Data.List.Forall2

/-!
# Types of captors apart from each other

What a block tells about one type of captors does not depend on the scopes of
another type, which may be left out, with one exception.  A call sets the crossers
of its thread aside, unless its snapshot is empty.  So leaving out the only
crossers of a snapshot keeps those of the thread on the chain, where a snapshot
taken inside the call finds them.  Such a snapshot misses a crosser of the seen type,
and as long as none of them is called nothing is told apart.  The comparison is of two
meanings, with and without the scopes of the hidden type, in scenes that are alike for
the seen type at every place.
-/

namespace Ambient

/-! ## Leaving scopes out -/

/-- The type that an observation is about. -/
def Observation.type? : Observation → Option CaptorType
  | .current type _ => some type
  | .received type _ _ => some type
  | .answered type _ => some type
  | .bridged type _ => some type
  | .previous type _ => some type
  | _ => none

/-- What is observed of one type, in order. -/
def Notebook.seen (type : CaptorType) (notebook : Notebook) : List Observation :=
  notebook.trace.filter fun observation => observation.type? = some type

theorem Notebook.seen_note (type : CaptorType) (notebook : Notebook)
    (observation : Observation) :
    (notebook.note observation).seen type =
      notebook.seen type ++ if observation.type? = some type then [observation] else [] := by
  by_cases shown : observation.type? = some type <;>
    simp [seen, note, List.filter_append, shown]

/-- The type of the scope, by the types of the bridges built so far. -/
def Enclosure.type? (bridges : List CaptorType) : Enclosure → Option CaptorType
  | .capture type _ => some type
  | .crosser type _ => some type
  | .crossing position => bridges[position]?

namespace Block

/-- Whether a block ends in a panic. -/
def raises : Block → Bool
  | .andThen first second => first.raises || second.raises
  | .within _ body => body.raises
  | .call _ body => body.raises
  | .enter _ body => body.raises
  | .raise _ => true
  | _ => false

/-- The types of the bridges that a block builds, in order. -/
def bridges : Block → List CaptorType
  | .andThen first second =>
      if first.raises then first.bridges else first.bridges ++ second.bridges
  | .bridge type => [type]
  | .bridgeOf type _ => [type]
  | .within _ body => body.bridges
  | .call _ body => body.bridges
  | .enter _ body => body.bridges
  | .thread body => body.bridges
  | .attempt body => body.bridges
  | _ => []

/-- The block with every scope of a type replaced by its body, after bridges of
some types have been built. -/
def without (type : CaptorType) : Block → List CaptorType → Block
  | .andThen first second, before =>
      .andThen (first.without type before) (second.without type (before ++ first.bridges))
  | .within enclosure body, before =>
      if enclosure.type? before = some type then body.without type before
      else .within enclosure (body.without type before)
  | .call layers body, before => .call layers (body.without type before)
  | .enter position body, before => .enter position (body.without type before)
  | .thread body, before => .thread (body.without type before)
  | .attempt body, before => .attempt (body.without type before)
  | block, _ => block

end Block

theorem Scene.inside_of_empty {snapshot : Snapshot} (empty : snapshot.chain = [])
    (scene : Scene) : scene.inside snapshot = scene := by
  simp [inside, Snapshot.isEmpty, empty]

theorem Scene.inside_of_filled {snapshot : Snapshot} (filled : snapshot.chain ≠ [])
    (scene : Scene) :
    scene.inside snapshot =
      { scene with
        environment := fun type =>
          (Chain.captor? type snapshot.chain).or (scene.environment type)
        chain := snapshot.chain } := by
  simp [inside, Snapshot.isEmpty, filled]

/-! ## What is set aside -/

/-- What a block has taken, by its position in the notebook. -/
inductive Taken where
  | snapshot (position : Nat)
  | point (position : Nat)
deriving DecidableEq, Repr

/-- Only the position at the end of a list is new when one element is added. -/
theorem getElem?_concat {α : Type} (list : List α) (last : α) (position : Nat) :
    (list ++ [last])[position]? =
      if position = list.length then some last else list[position]? := by
  rcases Nat.lt_trichotomy position list.length with before | rfl | beyond
  · rw [List.getElem?_append_left before, if_neg (Nat.ne_of_lt before)]
  · simp
  · have past : (list ++ [last]).length ≤ position :=
      List.length_append ▸ beyond
    rw [if_neg (Nat.ne_of_gt beyond), List.getElem?_eq_none past,
      List.getElem?_eq_none (Nat.le_of_lt beyond)]

namespace Notebook

def chain (notebook : Notebook) : Taken → Chain
  | .snapshot position => (notebook.snapshot position).chain
  | .point position => (notebook.point position).snapshot.chain

theorem chain_keepSnapshot (notebook : Notebook) (snapshot : Snapshot) :
    (notebook.keepSnapshot snapshot).chain =
      Function.update notebook.chain (.snapshot notebook.snapshots.length) snapshot.chain := by
  funext taken
  cases taken with
  | point position => rfl
  | snapshot position =>
      simp only [chain, Notebook.snapshot, keepSnapshot, getElem?_concat,
        Function.update_apply, Taken.snapshot.injEq]
      split <;> rfl

theorem chain_keepPoint (notebook : Notebook) (point : EntryPoint) :
    (notebook.keepPoint point).chain =
      Function.update notebook.chain (.point notebook.points.length) point.snapshot.chain := by
  funext taken
  cases taken with
  | snapshot position => rfl
  | point position =>
      simp only [chain, Notebook.point, keepPoint, getElem?_concat, Function.update_apply,
        Taken.point.injEq]
      split <;> rfl

end Notebook

/-- How a chain compares with what it is without the hidden type. -/
structure Gap where
  /-- Nothing is on it then. -/
  hollow : Bool
  /-- It misses a crosser of the seen type that is on it then. -/
  missing : Bool
deriving DecidableEq, Repr

namespace Gap

/-- At the start both are the same. -/
def start (chain : Chain) : Gap :=
  ⟨chain.isEmpty, false⟩

/-- A crosser of the hidden type is left out, and one of the seen type hides what is
behind it. -/
def within (seen hidden : CaptorType) (gap : Gap) : Opening → Gap
  | .crosser type _ => if type = hidden then gap else ⟨false, gap.missing && type ≠ seen⟩
  | _ => gap

/-- Without its crossers a snapshot does not set aside those of the thread. -/
def inside (seen : CaptorType) (scene : Scene) (gap : Gap) (snapshot : Snapshot)
    (own : Gap) : Gap :=
  if snapshot.isEmpty then
    gap
  else if own.hollow then
    { gap with missing := gap.missing || (Chain.captor? seen scene.chain).isSome }
  else
    ⟨false, false⟩

def insideAll (seen : CaptorType) (notebook : Notebook) (gaps : Taken → Gap) :
    List Nat → Scene → Gap → Gap
  | [], _, gap => gap
  | position :: rest, scene, gap =>
      let snapshot := notebook.snapshot position
      insideAll seen notebook gaps rest (scene.inside snapshot)
        (gap.inside seen scene snapshot (gaps (.snapshot position)))

end Gap

namespace Block

/-- How all that has been taken after a block compares with what it is without the
hidden type.  There is no answer if the block calls what misses a crosser of the seen
type. -/
def gaps? (seen hidden : CaptorType) :
    Block → Scene → Gap → Ledger → (Taken → Gap) → Option (Taken → Gap)
  | .andThen first second, scene, gap, ledger, gaps =>
      (first.gaps? seen hidden scene gap ledger gaps).bind fun gaps =>
        if first.raises then
          some gaps
        else
          second.gaps? seen hidden scene gap (first.meaning scene ledger).2 gaps
  | .capture, _, gap, ledger, gaps =>
      some (Function.update gaps (.snapshot ledger.notebook.snapshots.length) gap)
  | .point, _, gap, ledger, gaps =>
      some (Function.update gaps (.point ledger.notebook.points.length) gap)
  | .within enclosure body, scene, gap, ledger, gaps =>
      match enclosure.opening? ledger.notebook with
      | none => body.gaps? seen hidden scene gap ledger gaps
      | some opening =>
          body.gaps? seen hidden (scene.within ledger.opened opening)
            (gap.within seen hidden opening)
            ((ledger.count opening).note
              (.previous opening.type (scene.environment opening.type))) gaps
  | .call layers body, scene, gap, ledger, gaps =>
      if layers.any fun position => (gaps (.snapshot position)).missing then
        none
      else
        body.gaps? seen hidden ((layers.map ledger.notebook.snapshot).foldl Scene.inside scene)
          (gap.insideAll seen ledger.notebook gaps layers scene) ledger gaps
  | .enter position body, scene, gap, ledger, gaps =>
      if (gaps (.point position)).missing then
        none
      else
        let snapshot := (ledger.notebook.point position).snapshot
        body.gaps? seen hidden (scene.inside snapshot)
          (gap.inside seen scene snapshot (gaps (.point position))) ledger gaps
  | .thread body, _, _, ledger, gaps =>
      body.gaps? seen hidden (.bare ledger.notebook.nextThread) (.start [])
        ⟨ledger.notebook.spawn, 0⟩ gaps
  | .attempt body, scene, gap, ledger, gaps =>
      body.gaps? seen hidden scene gap ledger gaps
  | _, _, _, _, gaps => some gaps

/-! ## What the text of a block tells -/

theorem type?_of_opening? (enclosure : Enclosure) (notebook : Notebook) :
    enclosure.type? (notebook.bridges.map (·.type)) =
      (enclosure.opening? notebook).map (·.type) := by
  cases enclosure with
  | capture | crosser => rfl
  | crossing position =>
      simp only [Enclosure.type?, Enclosure.opening?, List.getElem?_map, Option.map_map]
      rfl

/-- A bridge of a scope has the type that is asked for. -/
theorem type_lent (lent : List Bridge) (type : CaptorType) (level : Nat)
    (otherwise : Option CaptorId) :
    ((lent.filter (·.type = type))[level]?.getD ⟨type, otherwise⟩).type = type := by
  cases found : (lent.filter (·.type = type))[level]? with
  | none => rfl
  | some bridge => simpa using (List.mem_filter.mp (List.mem_of_getElem? found)).2

/-- The text of a block says whether it raises and which bridges it builds. -/
theorem meaning_text (block : Block) (scene : Scene) (ledger : Ledger) :
    (block.meaning scene ledger).1.isPanic = block.raises ∧
      (block.meaning scene ledger).2.notebook.bridges.map (·.type) =
        ledger.notebook.bridges.map (·.type) ++ block.bridges := by
  induction block generalizing scene ledger with
  | done | capture | point | raise => exact ⟨rfl, (List.append_nil _).symm⟩
  | current | compare | depth => exact ⟨rfl, (List.append_nil _).symm⟩
  | send type message =>
      simp only [meaning]
      cases scene.environment type <;> exact ⟨rfl, (List.append_nil _).symm⟩
  | bridge type => exact ⟨rfl, List.map_append⟩
  | bridgeOf type level =>
      refine ⟨rfl, List.map_append.trans ?_⟩
      rw [List.map_singleton, type_lent]
      rfl
  | andThen first second front back =>
      obtain ⟨ended, built⟩ := front scene ledger
      simp only [meaning, raises, bridges, ← ended]
      cases run : first.meaning scene ledger with
      | mk outcome next =>
          rw [run] at built
          cases outcome with
          | value value =>
              simpa [Outcome.isPanic, built] using back scene next
          | panic panic => exact ⟨rfl, built⟩
  | within enclosure body ih =>
      cases found : enclosure.opening? ledger.notebook with
      | none =>
          simp only [meaning, found, meaningWithin]
          exact ih scene ledger
      | some opening =>
          simp only [meaning, found, meaningWithin]
          obtain ⟨ended, built⟩ := ih (scene.within ledger.opened opening)
            ((ledger.count opening).note
              (.previous opening.type (scene.environment opening.type)))
          refine ⟨ended, built.trans ?_⟩
          cases opening <;> rfl
  | call layers body ih => exact ih _ _
  | enter position body ih => exact ih _ _
  | thread body ih => exact ⟨rfl, (ih _ _).2⟩
  | attempt body ih => exact ⟨rfl, (ih scene ledger).2⟩

end Block

/-! ## Alike for a type -/

/-- A chain and what it is with some crossers of the hidden type left out, as far as the
seen type can tell. -/
structure Chain.Akin (seen hidden : CaptorType) (gap : Gap) (whole part : Chain) :
    Prop where
  captor : gap.missing = false → captor? seen whole = captor? seen part
  missing : gap.missing = true → captor? seen whole = none ∧ (captor? seen part).isSome
  hollow : gap.hollow = part.isEmpty
  empty : whole = [] → part = []
  /-- Only the hidden type can have kept the whole chain from being empty too. -/
  hidden : part = [] → ∀ crosser ∈ whole, crosser.type = hidden

/-- Bridges of one type, which of the seen type lead to one captor. -/
structure Bridge.Akin (seen : CaptorType) (whole part : Bridge) : Prop where
  type : whole.type = part.type
  captor : part.type = seen → whole.captor = part.captor

/-- Scopes that differ at most in the bridge that is crossed. -/
inductive Opening.Akin (seen : CaptorType) : Opening → Opening → Prop where
  | capture (type : CaptorType) (captor : CaptorId) :
      Akin seen (.capture type captor) (.capture type captor)
  | crossing {left right : Bridge} (same : left.Akin seen right) :
      Akin seen (.crossing left) (.crossing right)
  | crosser (type : CaptorType) (captor : CaptorId) :
      Akin seen (.crosser type captor) (.crosser type captor)

structure Notebook.Akin (seen hidden : CaptorType) (gaps : Taken → Gap)
    (whole part : Notebook) : Prop where
  chains : ∀ taken, Chain.Akin seen hidden (gaps taken) (whole.chain taken) (part.chain taken)
  snapshots : whole.snapshots.length = part.snapshots.length
  points : whole.points.length = part.points.length
  bridges : List.Forall₂ (Bridge.Akin seen) whole.bridges part.bridges
  spawned : whole.spawned = part.spawned
  trace : whole.seen seen = part.seen seen

/-- Scenes that are alike, up to what is missing on the chain. -/
structure Scene.Akin (seen hidden : CaptorType) (gap : Gap) (whole part : Scene) :
    Prop where
  thread : whole.thread = part.thread
  environment : whole.environment seen = part.environment seen
  chain : Chain.Akin seen hidden gap whole.chain part.chain
  lent : whole.lent.filter (·.type = seen) = part.lent.filter (·.type = seen)

section

variable {seen hidden : CaptorType} {gap : Gap}

namespace Chain.Akin

variable {whole part : Chain}

theorem refl (chain : Chain) : Akin seen hidden (.start chain) chain chain where
  captor _ := rfl
  missing := nofun
  hollow := rfl
  empty := id
  hidden := by
    rintro rfl
    simp

/-- A crosser that both have.  Its numbers may differ, and nothing is told behind it if it
has the seen type. -/
theorem cons (akin : Akin seen hidden gap whole part) (type : CaptorType) (captor : CaptorId)
    (id id' : CrosserId) :
    Akin seen hidden ⟨false, gap.missing && type ≠ seen⟩ (⟨id, type, captor⟩ :: whole)
      (⟨id', type, captor⟩ :: part) := by
  refine ⟨fun kept => ?_, fun lost => ?_, rfl, nofun, nofun⟩
  · by_cases shown : type = seen
    · simp [captor?, shown]
    · have kept : gap.missing = false := by simpa [shown] using kept
      simp [captor?, shown, akin.captor kept]
  · simp only [Bool.and_eq_true, decide_eq_true_eq] at lost
    simpa [captor?, lost.2] using akin.missing lost.1

/-- A crosser of the hidden type that is left out. -/
theorem cons_hidden (akin : Akin seen hidden gap whole part) (distinct : seen ≠ hidden)
    {crosser : Crosser} (type : crosser.type = hidden) :
    Akin seen hidden gap (crosser :: whole) part where
  captor kept := by simp [captor?, type, distinct.symm, akin.captor kept]
  missing lost := by simpa [captor?, type, distinct.symm] using akin.missing lost
  hollow := akin.hollow
  empty := nofun
  hidden empty := List.forall_mem_cons.mpr ⟨type, akin.hidden empty⟩

end Chain.Akin

/-- Chains of another type alone have no captor of the seen one. -/
theorem Chain.captor?_of_hidden (distinct : seen ≠ hidden) {chain : Chain}
    (all : ∀ crosser ∈ chain, crosser.type = hidden) : captor? seen chain = none := by
  rw [captor?_eq_none_iff]
  intro listed
  obtain ⟨crosser, member, type⟩ := List.mem_map.mp listed
  exact distinct (type.symm.trans (all crosser member))

/-- Related lists have related elements at each position. -/
theorem getElem?_of_forall₂ {α β : Type} {related : α → β → Prop} {left : List α}
    {right : List β} (all : List.Forall₂ related left right) (position : Nat) :
    Option.Rel related left[position]? right[position]? := by
  induction all generalizing position with
  | nil => exact .none
  | cons first rest ih =>
      cases position with
      | zero => exact .some first
      | succ position => exact ih position

namespace Notebook.Akin

variable {whole part : Notebook} {gaps : Taken → Gap}

theorem refl (notebook : Notebook) :
    Akin seen hidden (fun taken => .start (notebook.chain taken)) notebook notebook where
  chains taken := .refl (notebook.chain taken)
  snapshots := rfl
  points := rfl
  bridges := List.forall₂_same.mpr fun _ _ => ⟨rfl, fun _ => rfl⟩
  spawned := rfl
  trace := rfl

theorem spawn (akin : Akin seen hidden gaps whole part) :
    Akin seen hidden gaps whole.spawn part.spawn :=
  { akin with spawned := congrArg (· + 1) akin.spawned }

theorem nextThread (akin : Akin seen hidden gaps whole part) :
    whole.nextThread = part.nextThread := by
  rw [Notebook.nextThread, Notebook.nextThread, akin.spawned]

theorem note (akin : Akin seen hidden gaps whole part) (observation : Observation) :
    Akin seen hidden gaps (whole.note observation) (part.note observation) :=
  { akin with
    trace := by rw [Notebook.seen_note, Notebook.seen_note, akin.trace] }

theorem note_left (akin : Akin seen hidden gaps whole part) {observation : Observation}
    (other : observation.type? ≠ some seen) :
    Akin seen hidden gaps (whole.note observation) part :=
  { akin with
    trace := by rw [Notebook.seen_note, if_neg other, List.append_nil, akin.trace] }

theorem note_right (akin : Akin seen hidden gaps whole part) {observation : Observation}
    (other : observation.type? ≠ some seen) :
    Akin seen hidden gaps whole (part.note observation) :=
  { akin with
    trace := by rw [Notebook.seen_note, if_neg other, List.append_nil, akin.trace] }

/-- What is of no type may differ. -/
theorem note_untyped (akin : Akin seen hidden gaps whole part) {left right : Observation}
    (first : left.type? = none) (second : right.type? = none) :
    Akin seen hidden gaps (whole.note left) (part.note right) :=
  (akin.note_left (by simp [first])).note_right (by simp [second])

/-- Observations of one type may differ unless it is the seen one. -/
theorem note_of_type (akin : Akin seen hidden gaps whole part) {left right : Observation}
    {type : CaptorType} (first : left.type? = some type) (second : right.type? = some type)
    (same : type = seen → left = right) :
    Akin seen hidden gaps (whole.note left) (part.note right) := by
  by_cases shown : type = seen
  · rw [same shown]
    exact akin.note right
  · exact (akin.note_left (by simp [first, shown])).note_right (by simp [second, shown])

/-- What is taken next has the gap of its place. -/
theorem chains_update (akin : Akin seen hidden gaps whole part) {left right : Chain}
    (same : Chain.Akin seen hidden gap left right) (next taken : Taken) :
    Chain.Akin seen hidden (Function.update gaps next gap taken)
      (Function.update whole.chain next left taken)
      (Function.update part.chain next right taken) := by
  by_cases own : taken = next
  · subst own
    simpa using same
  · simpa [own] using akin.chains taken

theorem keepSnapshot (akin : Akin seen hidden gaps whole part) {left right : Snapshot}
    (same : Chain.Akin seen hidden gap left.chain right.chain) :
    Akin seen hidden (Function.update gaps (.snapshot whole.snapshots.length) gap)
      (whole.keepSnapshot left) (part.keepSnapshot right) :=
  { akin with
    chains := fun taken => by
      rw [Notebook.chain_keepSnapshot, Notebook.chain_keepSnapshot, ← akin.snapshots]
      exact akin.chains_update same _ taken
    snapshots := by simp [Notebook.keepSnapshot, akin.snapshots] }

theorem keepPoint (akin : Akin seen hidden gaps whole part) {left right : EntryPoint}
    (same : Chain.Akin seen hidden gap left.snapshot.chain right.snapshot.chain) :
    Akin seen hidden (Function.update gaps (.point whole.points.length) gap)
      (whole.keepPoint left) (part.keepPoint right) :=
  { akin with
    chains := fun taken => by
      rw [Notebook.chain_keepPoint, Notebook.chain_keepPoint, ← akin.points]
      exact akin.chains_update same _ taken
    points := by simp [Notebook.keepPoint, akin.points] }

theorem keepBridge (akin : Akin seen hidden gaps whole part) {left right : Bridge}
    (same : left.Akin seen right) :
    Akin seen hidden gaps (whole.keepBridge left) (part.keepBridge right) := by
  have kept : Akin seen hidden gaps { whole with bridges := whole.bridges ++ [left] }
      { part with bridges := part.bridges ++ [right] } :=
    { akin with bridges := List.rel_append akin.bridges (.cons same .nil) }
  refine kept.note_of_type (congrArg some same.type) rfl fun shown => ?_
  rw [same.type, same.captor shown]

theorem opening? (akin : Akin seen hidden gaps whole part) (enclosure : Enclosure) :
    Option.Rel (Opening.Akin seen) (enclosure.opening? whole)
      (enclosure.opening? part) := by
  cases enclosure with
  | capture type captor => exact .some (.capture type captor)
  | crosser type captor => exact .some (.crosser type captor)
  | crossing position =>
      have found := getElem?_of_forall₂ akin.bridges position
      simp only [Enclosure.opening?]
      generalize whole.bridges[position]? = left, part.bridges[position]? = right at found
      cases found with
      | none => exact .none
      | some same => exact .some (.crossing same)

end Notebook.Akin

namespace Opening.Akin

variable {left right : Opening}

theorem type (akin : Opening.Akin seen left right) : left.type = right.type := by
  cases akin with
  | crossing same => exact same.type
  | _ => rfl

theorem installed (akin : Opening.Akin seen left right) (shown : right.type = seen) :
    left.installed = right.installed := by
  cases akin with
  | crossing same => exact same.captor shown
  | _ => rfl

end Opening.Akin

namespace Scene.Akin

variable {whole part : Scene}

theorem refl (scene : Scene) : Akin seen hidden (.start scene.chain) scene scene :=
  ⟨rfl, rfl, .refl scene.chain, rfl⟩

/-- A scope that both have. -/
theorem within (akin : Akin seen hidden gap whole part) (opened opened' : Nat)
    {left right : Opening} (apart : left.type ≠ hidden) (same : left.Akin seen right) :
    Akin seen hidden (gap.within seen hidden left) (whole.within opened left)
      (part.within opened' right) where
  thread := by rw [thread_within, thread_within, akin.thread]
  environment := by
    rw [environment_within, environment_within, same.type, akin.environment]
    by_cases shown : right.type = seen
    · simp only [if_pos shown, same.installed shown]
    · simp only [if_neg shown]
  chain := by
    cases same with
    | crosser type captor =>
        have known : gap.within seen hidden (.crosser type captor) =
            ⟨false, gap.missing && type ≠ seen⟩ := if_neg apart
        rw [known]
        exact akin.chain.cons type captor _ _
    | _ => exact akin.chain
  lent := by
    cases same with
    | capture type captor => simp only [Scene.within, List.filter_cons, akin.lent]
    | _ => exact akin.lent

/-- A scope of the hidden type that is left out. -/
theorem within_hidden (akin : Akin seen hidden gap whole part) (distinct : seen ≠ hidden)
    (opened : Nat) {opening : Opening} (type : opening.type = hidden) :
    Akin seen hidden (gap.within seen hidden opening) (whole.within opened opening) part where
  thread := (thread_within ..).trans akin.thread
  environment := by
    rw [environment_within, if_neg (type.trans_ne distinct.symm), akin.environment]
  chain := by
    cases opening with
    | crosser other captor =>
        have known : gap.within seen hidden (.crosser other captor) = gap := if_pos type
        rw [known]
        exact akin.chain.cons_hidden distinct type
    | _ => exact akin.chain
  lent := by
    cases opening with
    | capture other captor =>
        have apart : ¬other = seen := type.trans_ne distinct.symm
        simp only [Scene.within, List.filter_cons, apart, decide_false, akin.lent,
          Bool.false_eq_true, if_false]
    | _ => exact akin.lent

/-- Only in the whole run a chain of the hidden type alone takes the place of the thread's,
which it misses if that has a crosser of the seen type. -/
theorem chain_set_aside (akin : Akin seen hidden gap whole part) (distinct : seen ≠ hidden)
    {chain : Chain} (filled : chain ≠ []) (all : ∀ crosser ∈ chain, crosser.type = hidden) :
    Chain.Akin seen hidden
      { gap with missing := gap.missing || (Chain.captor? seen whole.chain).isSome } chain
      part.chain := by
  have absent := Chain.captor?_of_hidden distinct all
  refine ⟨fun kept => ?_, fun lost => ⟨absent, ?_⟩, akin.chain.hollow,
    fun empty => absurd empty filled, fun _ => all⟩
  · simp only [Bool.or_eq_false_iff, Option.isSome_eq_false_iff, Option.isNone_iff_eq_none] at kept
    rw [absent, ← akin.chain.captor kept.1, kept.2]
  · cases before : gap.missing with
    | true => exact (akin.chain.missing before).2
    | false =>
        rw [← akin.chain.captor before]
        simpa [before] using lost

theorem inside (akin : Akin seen hidden gap whole part) (distinct : seen ≠ hidden)
    {own : Gap} (kept : own.missing = false) {left right : Snapshot}
    (same : Chain.Akin seen hidden own left.chain right.chain) :
    Akin seen hidden (gap.inside seen whole left own) (whole.inside left)
      (part.inside right) := by
  by_cases filled : left.chain = []
  · rw [Gap.inside, if_pos (by simpa [Snapshot.isEmpty] using filled), inside_of_empty filled,
      inside_of_empty (same.empty filled)]
    exact akin
  have occupied : ¬ left.isEmpty = true := by simpa [Snapshot.isEmpty] using filled
  rw [Gap.inside, if_neg occupied, inside_of_filled filled]
  cases hollow : own.hollow with
  | true =>
      have empty : right.chain = [] := by simpa [same.hollow] using hollow
      have all := same.hidden empty
      rw [if_pos rfl, inside_of_empty empty]
      refine ⟨akin.thread, ?_, akin.chain_set_aside distinct filled all, akin.lent⟩
      simp only [Chain.captor?_of_hidden distinct all, Option.none_or, akin.environment]
  | false =>
      have others : right.chain ≠ [] := by simpa [same.hollow] using hollow
      rw [if_neg (by simp), inside_of_filled others]
      refine ⟨akin.thread, ?_, ?_, akin.lent⟩
      · simp only [same.captor kept, akin.environment]
      · exact ⟨fun _ => same.captor kept, by rintro ⟨⟩, hollow.symm.trans same.hollow,
          same.empty, same.hidden⟩

end Scene.Akin

namespace Ledger

/-- What a scope leaves in the ledger as it is opened. -/
def entering (ledger : Ledger) (scene : Scene) (opening : Opening) : Ledger :=
  (ledger.count opening).note (.previous opening.type (scene.environment opening.type))

theorem notebook_entering (ledger : Ledger) (scene : Scene) (opening : Opening) :
    (ledger.entering scene opening).notebook =
      ledger.notebook.note (.previous opening.type (scene.environment opening.type)) := by
  cases opening <;> rfl

theorem bridges_entering (ledger : Ledger) (scene : Scene) (opening : Opening) :
    (ledger.entering scene opening).notebook.bridges = ledger.notebook.bridges := by
  rw [notebook_entering, Notebook.note]

variable {gaps : Taken → Gap} {ledger ledger' : Ledger} {scene scene' : Scene}

theorem entering_akin (notebooks : ledger.notebook.Akin seen hidden gaps ledger'.notebook)
    (scenes : scene.Akin seen hidden gap scene') {left right : Opening}
    (same : left.Akin seen right) :
    (ledger.entering scene left).notebook.Akin seen hidden gaps
      (ledger'.entering scene' right).notebook := by
  rw [notebook_entering, notebook_entering]
  refine notebooks.note_of_type rfl (congrArg some same.type.symm) fun shown => ?_
  rw [← same.type, shown, scenes.environment]

theorem entering_hidden (notebooks : ledger.notebook.Akin seen hidden gaps ledger'.notebook)
    (distinct : seen ≠ hidden) {opening : Opening} (type : opening.type = hidden) :
    (ledger.entering scene opening).notebook.Akin seen hidden gaps ledger'.notebook := by
  rw [notebook_entering]
  refine notebooks.note_left ?_
  simpa [Observation.type?, type] using distinct.symm

end Ledger

namespace Block

variable {gaps gaps' : Taken → Gap} {scene scene' : Scene} {ledger ledger' : Ledger}

theorem layers_akin (distinct : seen ≠ hidden) {whole part : Notebook}
    (notebooks : whole.Akin seen hidden gaps part) {layers : List Nat}
    (kept : ∀ position ∈ layers, (gaps (.snapshot position)).missing = false)
    (scenes : scene.Akin seen hidden gap scene') :
    Scene.Akin seen hidden (gap.insideAll seen whole gaps layers scene)
      ((layers.map whole.snapshot).foldl Scene.inside scene)
      ((layers.map part.snapshot).foldl Scene.inside scene') := by
  induction layers generalizing scene scene' gap with
  | nil => exact scenes
  | cons position rest ih =>
      obtain ⟨first, others⟩ := List.forall_mem_cons.mp kept
      exact ih others (scenes.inside distinct first (notebooks.chains (.snapshot position)))

/-- Results with one outcome whose notebooks are alike. -/
def Alike (seen hidden : CaptorType) (gaps : Taken → Gap) (whole part : Outcome Unit × Ledger) :
    Prop :=
  whole.1 = part.1 ∧ whole.2.notebook.Akin seen hidden gaps part.2.notebook

/-- A message reaches the same captor if it is of the seen type. -/
theorem send_akin (notebooks : ledger.notebook.Akin seen hidden gaps ledger'.notebook)
    {type : CaptorType} {message : String}
    (same : type = seen → scene.environment type = scene'.environment type) :
    Alike seen hidden gaps ((send type message).meaning scene ledger)
      ((send type message).meaning scene' ledger') := by
  by_cases shown : type = seen
  · simp only [meaning, same shown]
    cases scene'.environment type with
    | none => exact ⟨rfl, notebooks.note _⟩
    | some captor => exact ⟨rfl, (notebooks.note _).note _⟩
  · have answered (got : Bool) : (Observation.answered type got).type? ≠ some seen := by
      simpa [Observation.type?] using shown
    have received (captor : CaptorId) :
        (Observation.received type captor message).type? ≠ some seen := by
      simpa [Observation.type?] using shown
    simp only [meaning]
    cases scene.environment type with
    | none =>
        have left := notebooks.note_left (answered false)
        cases scene'.environment type with
        | none => exact ⟨rfl, left.note_right (answered false)⟩
        | some captor => exact ⟨rfl, (left.note_right (received captor)).note_right (answered true)⟩
    | some captor =>
        have left := (notebooks.note_left (received captor)).note_left (answered true)
        cases scene'.environment type with
        | none => exact ⟨rfl, left.note_right (answered false)⟩
        | some captor => exact ⟨rfl, (left.note_right (received captor)).note_right (answered true)⟩

/-- A block means the same for the seen type without the scopes of the hidden one. -/
theorem meaning_without (distinct : seen ≠ hidden) (block : Block)
    (scenes : scene.Akin seen hidden gap scene')
    (notebooks : ledger.notebook.Akin seen hidden gaps ledger'.notebook)
    (known : block.gaps? seen hidden scene gap ledger gaps = some gaps') :
    Alike seen hidden gaps' (block.meaning scene ledger)
      ((block.without hidden (ledger.notebook.bridges.map (·.type))).meaning
        scene' ledger') := by
  induction block generalizing scene scene' gap gaps gaps' ledger ledger' with
  | done | raise =>
      obtain rfl := Option.some.inj known
      exact ⟨rfl, notebooks⟩
  | current type =>
      obtain rfl := Option.some.inj known
      refine ⟨rfl, notebooks.note_of_type rfl rfl ?_⟩
      rintro rfl
      rw [scenes.environment]
  | send type message =>
      obtain rfl := Option.some.inj known
      have same : type = seen → scene.environment type = scene'.environment type := by
        rintro rfl
        exact scenes.environment
      exact send_akin notebooks same
  | capture =>
      obtain rfl := Option.some.inj known
      exact ⟨rfl, notebooks.keepSnapshot scenes.chain⟩
  | point =>
      obtain rfl := Option.some.inj known
      exact ⟨rfl, notebooks.keepPoint scenes.chain⟩
  | compare | depth =>
      obtain rfl := Option.some.inj known
      exact ⟨rfl, notebooks.note_untyped rfl rfl⟩
  | bridge type =>
      obtain rfl := Option.some.inj known
      refine ⟨rfl, notebooks.keepBridge ⟨rfl, ?_⟩⟩
      rintro rfl
      exact scenes.environment
  | bridgeOf type level =>
      obtain rfl := Option.some.inj known
      refine ⟨rfl, notebooks.keepBridge ⟨?_, ?_⟩⟩
      · rw [type_lent, type_lent]
      · rw [type_lent]
        rintro rfl
        rw [scenes.lent, scenes.environment]
  | andThen first second front back =>
      obtain ⟨between, known, later⟩ := Option.bind_eq_some_iff.mp known
      obtain ⟨ended, left⟩ := front scenes notebooks known
      obtain ⟨raised, built⟩ := first.meaning_text scene ledger
      simp only [without, meaning]
      generalize first.meaning scene ledger = whole at later ended left raised built ⊢
      generalize (first.without hidden _).meaning scene' ledger' = part at ended left ⊢
      obtain ⟨outcome, next⟩ := whole
      obtain ⟨outcome', next'⟩ := part
      obtain rfl : outcome = outcome' := ended
      rw [← raised] at later
      cases outcome with
      | panic panic =>
          obtain rfl := Option.some.inj later
          exact ⟨rfl, left⟩
      | value value =>
          have rest := back scenes left later
          rwa [built] at rest
  | within enclosure body ih =>
      have opened := notebooks.opening? enclosure
      have type := type?_of_opening? enclosure ledger.notebook
      simp only [gaps?] at known
      simp only [without, type, meaning]
      generalize enclosure.opening? ledger.notebook = left at known opened type ⊢
      generalize opened' : enclosure.opening? ledger'.notebook = right at opened
      cases opened with
      | none =>
          simp only [meaningWithin, Option.map_none, reduceCtorEq, if_false, meaning, opened']
          exact ih scenes notebooks known
      | @some left right same =>
          by_cases omitted : left.type = hidden
          · have inner := ih (scenes.within_hidden distinct ledger.opened omitted)
              (Ledger.entering_hidden notebooks distinct omitted) known
            rw [Ledger.bridges_entering] at inner
            simp only [Option.map_some, omitted, if_true, meaningWithin]
            exact omitted ▸ inner
          · have apart : some left.type ≠ some hidden := by simpa using omitted
            have inner := ih (scenes.within ledger.opened ledger'.opened omitted same)
              (Ledger.entering_akin notebooks scenes same) known
            rw [Ledger.bridges_entering] at inner
            simp only [Option.map_some, if_neg apart, meaning, opened', meaningWithin]
            exact inner
  | call layers body ih =>
      simp only [gaps?, Option.ite_none_left_eq_some, List.any_eq_true, not_exists, not_and,
        Bool.not_eq_true] at known
      exact ih (layers_akin distinct notebooks known.1 scenes) notebooks known.2
  | enter position body ih =>
      simp only [gaps?, Option.ite_none_left_eq_some, Bool.not_eq_true] at known
      exact ih (scenes.inside distinct known.1 (notebooks.chains (.point position))) notebooks
        known.2
  | thread body ih =>
      have bare : Scene.Akin seen hidden (.start []) (.bare ledger.notebook.nextThread)
          (.bare ledger'.notebook.nextThread) :=
        notebooks.nextThread ▸ .refl (.bare ledger.notebook.nextThread)
      have spawned : Notebook.Akin seen hidden gaps (Ledger.notebook ⟨ledger.notebook.spawn, 0⟩)
          (Ledger.notebook ⟨ledger'.notebook.spawn, 0⟩) :=
        notebooks.spawn
      obtain ⟨-, inner⟩ := ih bare spawned known
      exact ⟨rfl, inner.note_untyped rfl rfl⟩
  | attempt body ih =>
      obtain ⟨-, inner⟩ := ih scenes notebooks known
      exact ⟨rfl, inner.note_untyped rfl rfl⟩

/-- What a block tells about one type of captors, and how it ends, does not depend
on its scopes of another type: it is the same when they are left out and only
their bodies are run, if nothing is called that misses a crosser of the seen type.
What misses one is just what was taken where a call had set it aside for the sake of
the hidden type alone.  All else that is taken has the same captor of the seen type. -/
theorem run_without (distinct : seen ≠ hidden) (block : Block) (context : Context)
    (process : Process Notebook) (live : (process.thread context.thread).live)
    (spare : process.Spare context.thread) {gaps : Taken → Gap}
    (known : block.gaps? seen hidden (process.scene context.thread)
      (.start (process.scene context.thread).chain) (process.ledger context.thread)
      (fun taken => .start (process.client.chain taken)) = some gaps) :
    let erased := block.without hidden (process.client.bridges.map (·.type))
    let whole := block.run [] context process
    let part := erased.run [] context process
    whole.1 = part.1 ∧ whole.2.client.seen seen = part.2.client.seen seen ∧
      ∀ taken,
        let own := Chain.captor? seen (whole.2.client.chain taken)
        let kept := Chain.captor? seen (part.2.client.chain taken)
        if (gaps taken).missing then own = none ∧ kept.isSome else own = kept := by
  intro erased whole part
  let scene := process.scene context.thread
  have stages : process.Stages scene := ⟨⟨live, fun _ => rfl, rfl⟩, spare⟩
  obtain ⟨outcome, ledger, -⟩ := block.run_faithful [] scene rfl context process rfl stages
  obtain ⟨outcome', ledger', -⟩ := erased.run_faithful [] scene rfl context process rfl stages
  have notebooks : (process.ledger context.thread).notebook.Akin seen hidden
      (fun taken => .start (process.client.chain taken))
      (process.ledger context.thread).notebook :=
    .refl process.client
  obtain ⟨same, alike⟩ := block.meaning_without distinct (.refl scene) notebooks known
  have written :
      whole.2.client = (block.meaning scene (process.ledger scene.thread)).2.notebook :=
    congrArg Ledger.notebook ledger
  have written' :
      part.2.client = (erased.meaning scene (process.ledger scene.thread)).2.notebook :=
    congrArg Ledger.notebook ledger'
  rw [written, written']
  refine ⟨?_, alike.trace, fun taken => ?_⟩
  · rw [outcome, outcome']
    exact same
  · dsimp only
    split
    · rename_i missing
      exact (alike.chains taken).missing missing
    · rename_i kept
      exact (alike.chains taken).captor (Bool.eq_false_iff.mpr kept)

end Block

end

namespace Block

/-- A snapshot of both types is called where the thread has scopes of its own, and one is
taken where a call of a snapshot of one type has set the other aside. -/
theorem run_without_spans :
    let log : CaptorType := ⟨"Log"⟩
    let spans : CaptorType := ⟨"Spans"⟩
    let calling : Block :=
      within (.capture spans "own") (call [1] ((send log "called").andThen (current spans)))
    let block : Block :=
      (within (.crosser spans "spans")
        (capture.andThen
          (within (.crosser log "log") (capture.andThen (thread calling))))).andThen
        (within (.crosser log "other") (call [0] capture))
    let context : Context := ⟨.debug, .main, false, []⟩
    let process : Process Notebook := .start .empty
    let whole := block.run [] context process
    let part := (block.without spans (process.client.bridges.map (·.type))).run [] context process
    whole.2.client.seen log =
        [.previous log none, .received log "log" "called", .answered log true,
          .previous log none] ∧
      Chain.captor? log (whole.2.client.chain (.snapshot 1)) =
        Chain.captor? log (part.2.client.chain (.snapshot 1)) ∧
      Chain.captor? log (whole.2.client.chain (.snapshot 2)) = none ∧
      (Chain.captor? log (part.2.client.chain (.snapshot 2))).isSome := by
  intro log spans calling block context process
  dsimp only
  have answers : (block.gaps? log spans (process.scene context.thread)
      (.start (process.scene context.thread).chain) (process.ledger context.thread)
      fun taken => .start (process.client.chain taken)).map
        (fun gaps => ((gaps (.snapshot 1)).missing, (gaps (.snapshot 2)).missing)) =
      some (false, true) := by decide +kernel
  obtain ⟨gaps, known, same⟩ := Option.map_eq_some_iff.mp answers
  obtain ⟨kept, missing⟩ := Prod.mk.inj same
  have apart : log ≠ spans := by decide
  have spare : process.Spare context.thread := Process.start_spare .empty
  obtain ⟨-, told, taken⟩ := run_without apart block context process rfl spare known
  have first := taken (.snapshot 1)
  have second := taken (.snapshot 2)
  -- It is enough to look at the run that has no scopes of the other type.
  have heard : ((block.without spans (process.client.bridges.map (·.type))).run []
      context process).2.client.seen log =
      [.previous log none, .received log "log" "called", .answered log true,
        .previous log none] := by decide +kernel
  simp only [kept, missing, Bool.false_eq_true, if_false, if_true] at first second
  exact ⟨told.trans heard, first, second⟩

/-- Inside a call of a snapshot of one type a snapshot is taken without the crosser of
the other type around the call; it is taken with that crosser if the call has
nothing to put in its place. -/
theorem run_without_loses_log :
    let log : CaptorType := ⟨"Log"⟩
    let spans : CaptorType := ⟨"Spans"⟩
    let block : Block :=
      (within (.crosser spans "spans") capture).andThen
        ((within (.crosser log "log") (call [0] capture)).andThen (call [1] (current log)))
    let context : Context := ⟨.debug, .main, false, []⟩
    (block.run [] context (.start .empty)).2.client.seen log =
        [.previous log none, .current log none] ∧
      ((block.without spans []).run [] context (.start .empty)).2.client.seen log =
        [.previous log none, .current log (some "log")] := by
  intro log spans block context
  exact ⟨by decide +kernel, by decide +kernel⟩

end Block

end Ambient
