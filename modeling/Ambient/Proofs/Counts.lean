import Ambient.Registry

/-!
# Counting references

A reference to a chain points to its innermost crosser, and so does the link of every
registered crosser to the chain around it.  A registry counts the references if it has
for each crosser just as many holders as there are references to it, and has none that
nothing refers to.  Giving up a reference then takes away the crossers that no other
reference leads to, and those alone.
-/

namespace Ambient

namespace Chain

/-- The crosser that a reference to the chain points to. -/
def node? (chain : Chain) : Option CrosserId :=
  chain.head?.map Crosser.id

/-- How many of some references point to a crosser. -/
def pointing (id : CrosserId) (references : List Chain) : Nat :=
  references.countP (fun chain => chain.node? = some id)

@[simp] theorem node?_nil : node? [] = none :=
  rfl

@[simp] theorem node?_cons (crosser : Crosser) (outer : Chain) :
    node? (crosser :: outer) = some crosser.id :=
  rfl

@[simp] theorem pointing_cons (id : CrosserId) (chain : Chain) (references : List Chain) :
    pointing id (chain :: references) =
      pointing id references + if chain.node? = some id then 1 else 0 := by
  simp [pointing, List.countP_cons]

@[simp] theorem pointing_append (id : CrosserId) (first second : List Chain) :
    pointing id (first ++ second) = pointing id first + pointing id second :=
  List.countP_append

theorem pointing_perm {first second : List Chain} (same : first.Perm second) (id : CrosserId) :
    pointing id first = pointing id second :=
  same.countP_eq _

theorem pointing_pos {id : CrosserId} {chain : Chain} {references : List Chain}
    (member : chain ∈ references) (points : chain.node? = some id) :
    0 < pointing id references :=
  List.countP_pos_iff.mpr ⟨chain, member, by simpa using points⟩

end Chain

namespace Registry

variable {registry : Registry} {references : List Chain}

/-- All that is registered. -/
def registrations (registry : Registry) : List Registration :=
  registry.held.values.flatMap Trie.values

theorem captors_eq (registry : Registry) :
    registry.captors = registry.registrations.map (·.crosser.captor) :=
  List.map_flatMap.symm

/-- What was registered under an identity gives way, and the others stay. -/
theorem registrations_assign (registry : Registry) (id : CrosserId)
    (registration : Option Registration) :
    ((registry.find? id).toList ++ (registry.assign id registration).registrations).Perm
      (registration.toList ++ registry.registrations) := by
  let old := (registry.held.find? id.thread).getD .leaf
  let new := old.assign id.index registration
  have threads : (old.values ++ (registry.assign id registration).registrations).Perm
      (new.values ++ registry.registrations) := by
    have inserted := (registry.held.values_insert id.thread new).flatMap_right Trie.values
    rw [List.flatMap_append, List.flatMap_cons] at inserted
    have known : (registry.held.find? id.thread).toList.flatMap Trie.values = old.values := by
      cases found : registry.held.find? id.thread <;> simp [old, found, Trie.values]
    rwa [known] at inserted
  have numbers : ((registry.find? id).toList ++ new.values).Perm
      (registration.toList ++ old.values) :=
    Trie.values_assign registration old id.index
  -- What both sides have of the thread's other entries cancels out.
  refine (List.perm_append_left_iff old.values).mp ?_
  refine (List.perm_append_comm_assoc _ _ _).trans ((threads.append_left _).trans ?_)
  rw [← List.append_assoc]
  refine (numbers.append_right _).trans ?_
  rw [List.append_assoc]
  exact List.perm_append_comm_assoc _ _ _

/-- Every registered crosser is listed once, under its own identity. -/
structure Listed (registry : Registry) : Prop where
  own : ∀ {id registration}, registry.find? id = some registration → registration.crosser.id = id
  listed : ∀ {registration}, registration ∈ registry.registrations ↔
    registry.find? registration.crosser.id = some registration
  distinct : (registry.registrations.map (·.crosser.id)).Nodup

namespace Listed

theorem empty : Registry.empty.Listed where
  own := nofun
  listed := ⟨nofun, nofun⟩
  distinct := List.nodup_nil

/-- A list of all others than the crosser of some identity stays the same when the
registration of that one is changed. -/
theorem split (listed : registry.Listed) (id : CrosserId) (registration : Option Registration) :
    ∃ others, registry.registrations.Perm ((registry.find? id).toList ++ others) ∧
      (registry.assign id registration).registrations.Perm (registration.toList ++ others) ∧
      ∀ other ∈ others, other.crosser.id ≠ id := by
  have assigned := registry.registrations_assign id registration
  cases found : registry.find? id with
  | none =>
      rw [found] at assigned
      refine ⟨registry.registrations, .refl _, assigned, fun other member same => ?_⟩
      have known := listed.listed.mp member
      rw [same, found] at known
      contradiction
  | some old =>
      have own := listed.own found
      have member : old ∈ registry.registrations := listed.listed.mpr (own ▸ found)
      obtain ⟨front, back, split⟩ := List.append_of_mem member
      have apart : registry.registrations.Perm (old :: (front ++ back)) :=
        split ▸ List.perm_middle
      refine ⟨front ++ back, apart, ?_, fun other member same => ?_⟩
      · rw [found] at assigned
        refine (List.perm_cons old).mp (assigned.trans ((apart.append_left _).trans ?_))
        exact List.perm_middle
      · have distinct := (apart.map (·.crosser.id)).nodup_iff.mp listed.distinct
        rw [List.map_cons, List.nodup_cons] at distinct
        refine distinct.1 (List.mem_map.mpr ⟨other, member, same.trans own.symm⟩)

theorem assign (listed : registry.Listed) {id : CrosserId} {registration : Option Registration}
    (own : ∀ new, registration = some new → new.crosser.id = id) :
    (registry.assign id registration).Listed := by
  obtain ⟨others, before, after, apart⟩ := listed.split id registration
  have ownNow : ∀ {other new}, (registry.assign id registration).find? other = some new →
      new.crosser.id = other := by
    intro other new found
    rw [find?_assign] at found
    split at found
    · rename_i same
      exact same ▸ own new found
    · exact listed.own found
  have known (other : Registration) : other ∈ others ↔
      other.crosser.id ≠ id ∧ registry.find? other.crosser.id = some other := by
    refine ⟨fun member => ⟨apart other member, ?_⟩, fun ⟨distinct, found⟩ => ?_⟩
    · exact listed.listed.mp (before.mem_iff.mpr (List.mem_append_right _ member))
    · rcases List.mem_append.mp (before.mem_iff.mp (listed.listed.mpr found)) with here | there
      · exact absurd (listed.own (by simpa using here)) distinct
      · exact there
  refine ⟨ownNow, @fun other => ?_, ?_⟩
  · rw [after.mem_iff, List.mem_append, known, find?_assign]
    by_cases same : id = other.crosser.id
    · simp [same]
    · simp only [Ne.symm same, ne_eq, not_false_eq_true, true_and, same, if_false]
      refine ⟨fun found => ?_, .inr⟩
      rcases found with new | old
      · exact absurd (own other (by simpa using new)).symm same
      · exact old
  · have distinct := (before.map (·.crosser.id)).nodup_iff.mp listed.distinct
    rw [List.map_append] at distinct
    rw [(after.map (·.crosser.id)).nodup_iff]
    cases registration with
    | none => exact (List.nodup_append.mp distinct).2.1
    | some new =>
        refine List.nodup_cons.mpr ⟨fun member => ?_, (List.nodup_append.mp distinct).2.1⟩
        obtain ⟨other, old, same⟩ := List.mem_map.mp member
        exact apart other old (same.trans (own new rfl))

end Listed

/-! ## What is referred to -/

/-- The references given, and the links of all that is registered to what is around it. -/
def links (registry : Registry) (references : List Chain) : List Chain :=
  references ++ registry.registrations.map Registration.outer

/-- The innermost crosser of a chain is registered with the crossers around it. -/
def Has (registry : Registry) : Chain → Prop
  | [] => True
  | crosser :: outer => ∃ holders, registry.find? crosser.id = some ⟨crosser, outer, holders⟩

/-- The registry has as many holders of each crosser as there are references to it. -/
structure Counts (registry : Registry) (references : List Chain) : Prop where
  listed : registry.Listed
  has : ∀ chain ∈ registry.links references, registry.Has chain
  held : ∀ {id registration}, registry.find? id = some registration → 0 < registration.holders
  holders : ∀ id, registry.holders id = Chain.pointing id (registry.links references)

theorem holders_of_find? {id : CrosserId} {registration : Registration}
    (found : registry.find? id = some registration) :
    registry.holders id = registration.holders := by
  simp [Registry.holders, found]

@[simp] theorem holders_assign (registry : Registry) (id other : CrosserId)
    (registration : Option Registration) :
    (registry.assign id registration).holders other =
      if id = other then (registration.map (·.holders)).getD 0 else registry.holders other := by
  unfold Registry.holders
  rw [find?_assign]
  split <;> rfl

/-- A chain that is registered stays so, unless its own innermost crosser is changed. -/
theorem Has.assign {chain : Chain} (has : registry.Has chain) {id : CrosserId}
    {registration : Option Registration} (apart : chain.node? ≠ some id) :
    (registry.assign id registration).Has chain := by
  cases chain with
  | nil => trivial
  | cons crosser outer =>
      obtain ⟨holders, found⟩ := has
      refine ⟨holders, ?_⟩
      rw [find?_assign, if_neg, found]
      rintro rfl
      exact apart rfl

/-- The number of holders makes no difference to what is registered. -/
theorem Has.recount {chain : Chain} (has : registry.Has chain) {crosser : Crosser}
    {outer : Chain} (known : registry.Has (crosser :: outer)) (holders : Nat) :
    (registry.assign crosser.id (some ⟨crosser, outer, holders⟩)).Has chain := by
  cases chain with
  | nil => trivial
  | cons inner around =>
      obtain ⟨count, found⟩ := has
      by_cases same : crosser.id = inner.id
      · obtain ⟨other, found'⟩ := known
        rw [same, found] at found'
        obtain ⟨rfl, rfl, rfl⟩ : inner = crosser ∧ around = outer ∧ count = other := by
          simpa using found'
        exact ⟨holders, by rw [find?_assign, if_pos rfl]⟩
      · exact ⟨count, by rw [find?_assign, if_neg same, found]⟩

namespace Counts

theorem empty : Registry.empty.Counts [] where
  listed := .empty
  has := nofun
  held := nofun
  holders _ := rfl

theorem links_perm {others : List Chain} (same : references.Perm others) :
    (registry.links references).Perm (registry.links others) :=
  same.append_right _

/-- It does not matter in which order the references are given. -/
theorem perm (counts : registry.Counts references) {others : List Chain}
    (same : references.Perm others) : registry.Counts others where
  listed := counts.listed
  has chain member := counts.has chain ((links_perm same).mem_iff.mpr member)
  held := counts.held
  holders id := (counts.holders id).trans (Chain.pointing_perm (links_perm same) id)

/-- An empty chain refers to nothing. -/
theorem cons_nil : registry.Counts ([] :: references) ↔ registry.Counts references where
  mp counts :=
    ⟨counts.listed, fun chain member => counts.has chain (List.mem_cons_of_mem _ member),
      counts.held, fun id => (counts.holders id).trans (by simp [links])⟩
  mpr counts :=
    ⟨counts.listed, fun chain member => (List.mem_cons.mp member).elim
      (fun empty => empty ▸ trivial) (counts.has chain), counts.held,
      fun id => (counts.holders id).trans (by simp [links])⟩

/-- A registration is assigned and with it one reference is gained. -/
theorem gain (counts : registry.Counts references) {crosser : Crosser} {outer : Chain}
    {others : List Chain} (has : ∀ chain ∈ registry.links references,
      (registry.assign crosser.id
        (some ⟨crosser, outer, registry.holders crosser.id + 1⟩)).Has chain)
    (gained : ((registry.assign crosser.id
        (some ⟨crosser, outer, registry.holders crosser.id + 1⟩)).links others).Perm
      ((crosser :: outer) :: registry.links references)) :
    (registry.assign crosser.id
      (some ⟨crosser, outer, registry.holders crosser.id + 1⟩)).Counts others where
  listed := counts.listed.assign fun new same => by rw [← Option.some.inj same]
  has chain member := by
    rcases List.mem_cons.mp (gained.mem_iff.mp member) with rfl | old
    · exact ⟨_, by rw [find?_assign, if_pos rfl]⟩
    · exact has chain old
  held := by
    intro id registration found
    rw [find?_assign] at found
    split at found
    · rw [← Option.some.inj found]
      exact Nat.succ_pos _
    · exact counts.held found
  holders id := by
    rw [Chain.pointing_perm gained, holders_assign, Chain.pointing_cons, ← counts.holders]
    by_cases same : crosser.id = id <;> simp [same]

/-- One more holder of what is registered. -/
theorem hold (counts : registry.Counts references) {chain : Chain} (has : registry.Has chain) :
    (registry.hold chain).Counts (chain :: references) := by
  cases chain with
  | nil => exact cons_nil.mpr counts
  | cons crosser outer =>
      obtain ⟨holders, found⟩ := has
      refine counts.gain (fun chain member => (counts.has chain member).recount ⟨holders, found⟩ _)
        ?_
      obtain ⟨others, before, after, -⟩ := counts.listed.split crosser.id
        (some ⟨crosser, outer, registry.holders crosser.id + 1⟩)
      rw [found] at before
      have same := ((after.map Registration.outer).trans (before.map Registration.outer).symm)
      exact (same.append_left references).cons _

theorem outer_mem {crosser : Crosser} {outer : Chain} {holders : Nat}
    (counts : registry.Counts references)
    (found : registry.find? crosser.id = some ⟨crosser, outer, holders⟩) :
    outer ∈ registry.links references :=
  List.mem_append_right _
    (List.mem_map.mpr ⟨⟨crosser, outer, holders⟩, counts.listed.listed.mpr found, rfl⟩)

/-- Nothing points to what is not registered. -/
theorem node?_ne {id : CrosserId} (counts : registry.Counts references)
    (absent : registry.find? id = none) {chain : Chain}
    (member : chain ∈ registry.links references) : chain.node? ≠ some id := by
  intro points
  have counted := counts.holders id
  simp only [Registry.holders, absent, Option.map_none, Option.getD_none] at counted
  exact Nat.ne_of_lt (Chain.pointing_pos member points) counted

/-- A new crosser takes over a reference to what is around it, and is referred to itself. -/
theorem enroll {crosser : Crosser} {outer : Chain} (counts : registry.Counts references)
    (fresh : registry.find? crosser.id = none) (has : registry.Has outer) :
    (registry.enroll crosser outer).Counts ((crosser :: outer) :: references) := by
  have held := counts.hold has
  have absent : (registry.hold outer).find? crosser.id = none := by
    cases outer with
    | nil => exact fresh
    | cons inner around =>
        obtain ⟨holders, found⟩ := has
        rw [Registry.hold, find?_assign, if_neg, fresh]
        intro same
        rw [same, fresh] at found
        contradiction
  refine held.gain (fun chain member => (held.has chain member).assign
    (held.node?_ne absent member)) ?_
  obtain ⟨others, before, after, -⟩ := held.listed.split crosser.id
    (some ⟨crosser, outer, (registry.hold outer).holders crosser.id + 1⟩)
  rw [absent] at before
  have more := (after.trans (before.symm.cons _)).map Registration.outer
  refine ((more.append_left references).cons _).trans (List.Perm.cons _ ?_)
  exact List.perm_middle

/-! ## Giving up a reference -/

/-- A registration is assigned and with it one reference is lost. -/
theorem lose {crosser : Crosser} {outer : Chain} {others : List Chain}
    (counts : registry.Counts ((crosser :: outer) :: references))
    {registration : Option Registration}
    (own : ∀ new, registration = some new → new.crosser.id = crosser.id ∧ 0 < new.holders)
    (has : ∀ chain ∈ (registry.assign crosser.id registration).links others,
      (registry.assign crosser.id registration).Has chain)
    (fewer : (registration.map (·.holders)).getD 0 + 1 = registry.holders crosser.id)
    (lost : (registry.links ((crosser :: outer) :: references)).Perm
      ((crosser :: outer) :: (registry.assign crosser.id registration).links others)) :
    (registry.assign crosser.id registration).Counts others where
  listed := counts.listed.assign fun new same => (own new same).1
  has := has
  held := by
    intro id new found
    rw [find?_assign] at found
    split at found
    · exact (own new found).2
    · exact counts.held found
  holders id := by
    have counted := counts.holders id
    rw [Chain.pointing_perm lost, Chain.pointing_cons, Chain.node?_cons] at counted
    rw [holders_assign]
    by_cases same : crosser.id = id
    · subst same
      simp only [if_true] at counted ⊢
      omega
    · simpa [same] using counted

/-- While something else holds a crosser its count goes down. -/
theorem dismiss {crosser : Crosser} {outer : Chain} {holders : Nat}
    (counts : registry.Counts ((crosser :: outer) :: references))
    (found : registry.find? crosser.id = some ⟨crosser, outer, holders + 2⟩) :
    (registry.assign crosser.id (some ⟨crosser, outer, holders + 1⟩)).Counts references := by
  obtain ⟨others, before, after, -⟩ := counts.listed.split crosser.id
    (some ⟨crosser, outer, holders + 1⟩)
  rw [found] at before
  have same := ((before.map Registration.outer).trans (after.map Registration.outer).symm)
  refine counts.lose ?_ ?_ (holders_of_find? found).symm ((same.append_left references).cons _)
  · rintro new ⟨⟩
    exact ⟨rfl, Nat.succ_pos holders⟩
  · intro chain member
    have old := (same.append_left references).mem_iff.mpr member
    exact (counts.has chain (List.mem_cons_of_mem _ old)).recount ⟨_, found⟩ _

/-- The last holder takes the crosser away, whose own reference is left to be given up. -/
theorem free {crosser : Crosser} {outer : Chain}
    (counts : registry.Counts ((crosser :: outer) :: references))
    (found : registry.find? crosser.id = some ⟨crosser, outer, 1⟩) :
    (registry.assign crosser.id none).Counts (outer :: references) := by
  obtain ⟨others, before, after, -⟩ := counts.listed.split crosser.id none
  rw [found] at before
  have lost : (registry.links ((crosser :: outer) :: references)).Perm
      ((crosser :: outer) :: (registry.assign crosser.id none).links (outer :: references)) := by
    have fewer := (before.trans (after.symm.cons _)).map Registration.outer
    refine ((fewer.append_left references).cons _).trans (List.Perm.cons _ ?_)
    exact List.perm_middle
  refine counts.lose nofun (fun chain member => ?_) (holders_of_find? found).symm lost
  refine (counts.has chain (lost.mem_iff.mpr (List.mem_cons_of_mem _ member))).assign ?_
  -- The one reference to the crosser was the one given up.
  intro points
  have counted := counts.holders crosser.id
  rw [holders_of_find? found, Chain.pointing_perm lost, Chain.pointing_cons] at counted
  have others := Chain.pointing_pos member points
  simp only [Chain.node?_cons, if_true] at counted
  omega

/-- What giving up a chain comes to, by what the registry has of its innermost crosser. -/
theorem release_cases {crosser : Crosser} {outer : Chain}
    (counts : registry.Counts ((crosser :: outer) :: references)) :
    (registry.find? crosser.id = some ⟨crosser, outer, 1⟩ ∧
      registry.release (crosser :: outer) =
        (registry.assign crosser.id none).release outer) ∨
    ∃ holders, registry.find? crosser.id = some ⟨crosser, outer, holders + 2⟩ ∧
      registry.release (crosser :: outer) =
        registry.assign crosser.id (some ⟨crosser, outer, holders + 1⟩) := by
  obtain ⟨holders, found⟩ := counts.has _ List.mem_cons_self
  have counted := holders_of_find? found
  rcases holders with _ | _ | holders
  · exact absurd (counts.held found) (Nat.lt_irrefl 0)
  · exact .inl ⟨found, by simp [Registry.release, counted]⟩
  · exact .inr ⟨holders, found, by simp [Registry.release, counted]⟩

theorem release {chain : Chain} (counts : registry.Counts (chain :: references)) :
    (registry.release chain).Counts references := by
  induction chain generalizing registry with
  | nil => exact cons_nil.mp counts
  | cons crosser outer ih =>
      rcases counts.release_cases with ⟨found, freed⟩ | ⟨holders, found, kept⟩
      · rw [freed]
        exact ih (counts.free found)
      · rw [kept]
        exact counts.dismiss found

/-- Of what stays nothing changes but the number of holders. -/
theorem find?_release {chain : Chain} (counts : registry.Counts (chain :: references))
    {id : CrosserId} {registration : Registration}
    (found : (registry.release chain).find? id = some registration) :
    ∃ holders, registry.find? id = some { registration with holders := holders } := by
  induction chain generalizing registry with
  | nil => exact ⟨_, found⟩
  | cons crosser outer ih =>
      rcases counts.release_cases with ⟨known, last⟩ | ⟨holders, known, kept⟩
      · rw [last] at found
        obtain ⟨holders, before⟩ := ih (counts.free known) found
        rw [find?_assign] at before
        split at before
        · contradiction
        · exact ⟨holders, before⟩
      · rw [kept, find?_assign] at found
        split at found
        · rename_i same
          obtain rfl := Option.some.inj found
          exact ⟨holders + 2, same ▸ known⟩
        · exact ⟨_, found⟩

end Counts

end Registry

end Ambient
