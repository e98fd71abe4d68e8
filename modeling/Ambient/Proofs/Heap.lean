import Ambient.Proofs.Counts
import Ambient.Snapshot
import Mathlib.Algebra.Order.BigOperators.Group.List
import Mathlib.Algebra.Order.Ring.Nat
import Mathlib.Logic.Function.Basic

/-!
# The heap of crossers

Seen from memory a crosser is a node with a link to the one around it and a count of the
references to it, and nothing more is known of the crossers further out than what the
links lead to.  The last reference to a node goes with the node, and the link of the
node is given up in turn, in a loop that stops at the first node that something else
refers to.  Where the counts are right the loop does what the registry does: it comes to
its end, it takes away the nodes that no other reference leads to, each of them once,
and it leaves the links of all others alone.
-/

namespace Ambient

structure Node where
  type : CaptorType
  captor : CaptorId
  parent : Option CrosserId
  count : Nat
deriving DecidableEq, Repr

abbrev Heap :=
  CrosserId → Option Node

namespace Heap

def set (heap : Heap) (id : CrosserId) (node : Option Node) : Heap :=
  Function.update heap id node

/-- Give up a reference to a node, which is yielded if it goes with it. -/
def unwrap (heap : Heap) (id : CrosserId) : Heap × Option Node :=
  match heap id with
  | none => (heap, none)
  | some node =>
      if node.count = 1 then
        (heap.set id none, some node)
      else
        (heap.set id (some { node with count := node.count - 1 }), none)

/-- The loop over the link taken out of a node, in some rounds at most.  Yields what has
gone, if the rounds are enough. -/
def unlink : Nat → Heap → Option CrosserId → Option (Heap × List CrosserId)
  | _, heap, none => some (heap, [])
  | 0, _, some _ => none
  | rounds + 1, heap, some id =>
      match heap.unwrap id with
      | (next, none) => some (next, [])
      | (next, some node) =>
          (unlink rounds next node.parent).map fun (last, freed) => (last, id :: freed)

/-- Drop a reference.  A node that goes with it goes after the loop over its link. -/
def drop (rounds : Nat) (heap : Heap) : Option CrosserId → Option (Heap × List CrosserId)
  | none => some (heap, [])
  | some id =>
      match heap.unwrap id with
      | (next, none) => some (next, [])
      | (next, some node) =>
          (unlink rounds next node.parent).map fun (last, freed) => (last, freed ++ [id])

/-- Drop a reference without the loop: a node that goes with it drops its own link first,
down to some depth at most. -/
def dropNested : Nat → Heap → Option CrosserId → Option (Heap × List CrosserId)
  | _, heap, none => some (heap, [])
  | 0, _, some _ => none
  | depth + 1, heap, some id =>
      match heap.unwrap id with
      | (next, none) => some (next, [])
      | (next, some node) =>
          (dropNested depth next node.parent).map fun (last, freed) => (last, freed ++ [id])

/-- The links lead from a reference to a node. -/
inductive Reaches (heap : Heap) : Option CrosserId → CrosserId → Prop where
  | here {id node} : heap id = some node → Reaches heap (some id) id
  | outwards {id node other} :
      heap id = some node → Reaches heap node.parent other → Reaches heap (some id) other

/-- What a walk from a reference along the links meets. -/
inductive Walks (heap : Heap) : Option CrosserId → Chain → Prop where
  | done : Walks heap none []
  | node {id node outer} :
      heap id = some node → Walks heap node.parent outer →
        Walks heap (some id) (⟨id, node.type, node.captor⟩ :: outer)

variable {heap : Heap}

theorem Reaches.trans {link : Option CrosserId} {middle id : CrosserId}
    (first : heap.Reaches link middle) (second : heap.Reaches (some middle) id) :
    heap.Reaches link id := by
  induction first with
  | here => exact second
  | outwards found _ ih => exact .outwards found (ih second)

theorem Reaches.isSome {link : Option CrosserId} {id : CrosserId}
    (reaches : heap.Reaches link id) : (heap id).isSome := by
  induction reaches with
  | here found => simp [found]
  | outwards _ _ ih => exact ih

/-- A walk is determined by where it starts. -/
theorem Walks.unique {link : Option CrosserId} {first second : Chain}
    (walks : heap.Walks link first) (others : heap.Walks link second) : first = second := by
  induction walks generalizing second with
  | done => cases others; rfl
  | node found _ ih =>
      cases others with
      | node found' outer =>
          obtain rfl := Option.some.inj (found.symm.trans found')
          rw [ih outer]

end Heap

def Registration.node (registration : Registration) : Node :=
  ⟨registration.crosser.type, registration.crosser.captor, registration.outer.node?,
    registration.holders⟩

namespace Registry

variable {registry : Registry} {references : List Chain}

/-- What of the registry is in memory. -/
def heap (registry : Registry) : Heap :=
  fun id => (registry.find? id).map Registration.node

theorem heap_of_find? {id : CrosserId} {registration : Registration}
    (found : registry.find? id = some registration) :
    registry.heap id = some registration.node := by
  simp [heap, found]

theorem heap_assign (registry : Registry) (id : CrosserId) (registration : Option Registration) :
    (registry.assign id registration).heap =
      registry.heap.set id (registration.map Registration.node) := by
  funext other
  by_cases same : id = other
  · simp [heap, Heap.set, same]
  · simp [heap, Heap.set, same, Function.update_of_ne (Ne.symm same)]

theorem Listed.isSome_iff (listed : registry.Listed) {id : CrosserId} :
    (registry.heap id).isSome ↔ id ∈ registry.registrations.map (·.crosser.id) := by
  rw [heap, Option.isSome_map, Option.isSome_iff_exists, List.mem_map]
  constructor
  · rintro ⟨registration, found⟩
    have own := listed.own found
    exact ⟨registration, listed.listed.mpr (own ▸ found), own⟩
  · rintro ⟨registration, member, rfl⟩
    exact ⟨registration, listed.listed.mp member⟩

/-- The crossers that go with a reference, innermost first. -/
def freed (registry : Registry) : Chain → List Crosser
  | [] => []
  | crosser :: outer =>
      if registry.holders crosser.id = 1 then
        crosser :: freed (registry.assign crosser.id none) outer
      else
        []

/-- The nodes that go with a reference in the order in which they do. -/
def freedInOrder (registry : Registry) (chain : Chain) : List CrosserId :=
  let freed := (registry.freed chain).map Crosser.id
  freed.tail ++ freed.head?.toList

theorem freedInOrder_perm (registry : Registry) (chain : Chain) :
    (registry.freedInOrder chain).Perm ((registry.freed chain).map Crosser.id) := by
  unfold freedInOrder
  cases (registry.freed chain).map Crosser.id with
  | nil => exact .refl _
  | cons first rest => exact List.perm_append_singleton first rest

namespace Counts

/-! ## The loop and the registry -/

/-- What giving up a chain does in memory, by whether its innermost crosser goes. -/
theorem unwrap_cases {crosser : Crosser} {outer : Chain}
    (counts : registry.Counts ((crosser :: outer) :: references)) :
    (∃ node, node.parent = outer.node? ∧
      registry.heap.unwrap crosser.id = ((registry.assign crosser.id none).heap, some node) ∧
      registry.release (crosser :: outer) = (registry.assign crosser.id none).release outer ∧
      registry.freed (crosser :: outer) =
        crosser :: (registry.assign crosser.id none).freed outer ∧
      (registry.assign crosser.id none).Counts (outer :: references)) ∨
    (registry.heap.unwrap crosser.id = ((registry.release (crosser :: outer)).heap, none) ∧
      registry.freed (crosser :: outer) = []) := by
  rcases counts.release_cases with ⟨found, freed⟩ | ⟨holders, found, kept⟩
  · refine .inl ⟨Registration.node ⟨crosser, outer, 1⟩, rfl, ?_, freed, ?_, counts.free found⟩
    · rw [Heap.unwrap, heap_of_find? found, heap_assign]
      rfl
    · rw [Registry.freed, if_pos (holders_of_find? found)]
  · refine .inr ⟨?_, ?_⟩
    · rw [Heap.unwrap, heap_of_find? found, kept, heap_assign]
      rfl
    · rw [Registry.freed, if_neg (by simp [holders_of_find? found])]

/-- The loop ends after as many rounds as there are crossers on the chain at most. -/
theorem unlink_eq {chain : Chain} (counts : registry.Counts (chain :: references)) {rounds : Nat}
    (enough : chain.length ≤ rounds) :
    registry.heap.unlink rounds chain.node? =
      some ((registry.release chain).heap, (registry.freed chain).map Crosser.id) := by
  induction chain generalizing registry rounds with
  | nil => cases rounds <;> rfl
  | cons crosser outer ih =>
      cases rounds with
      | zero => contradiction
      | succ rounds =>
          rw [Chain.node?_cons, Heap.unlink]
          rcases counts.unwrap_cases with ⟨node, link, goes, rest, freed, left⟩ | ⟨stays, freed⟩
          · rw [goes, rest, freed]
            simp only [link, ih left (Nat.le_of_succ_le_succ enough)]
            rfl
          · rw [stays, freed]
            rfl

/-- Dropping a reference comes to the same, only that its own node goes last. -/
theorem drop_eq {chain : Chain} (counts : registry.Counts (chain :: references)) {rounds : Nat}
    (enough : chain.length ≤ rounds) :
    registry.heap.drop rounds chain.node? =
      some ((registry.release chain).heap, registry.freedInOrder chain) := by
  unfold freedInOrder
  cases chain with
  | nil => rfl
  | cons crosser outer =>
      rw [Chain.node?_cons, Heap.drop]
      rcases counts.unwrap_cases with ⟨node, link, goes, rest, freed, left⟩ | ⟨stays, freed⟩
      · rw [goes, rest, freed]
        simp only [link, left.unlink_eq (Nat.le_of_succ_le enough)]
        rfl
      · rw [stays, freed]
        rfl

/-- So does the recursion, where the outermost node goes first. -/
theorem dropNested_eq {chain : Chain} (counts : registry.Counts (chain :: references))
    {depth : Nat} (enough : chain.length ≤ depth) :
    registry.heap.dropNested depth chain.node? =
      some ((registry.release chain).heap, ((registry.freed chain).map Crosser.id).reverse) := by
  induction chain generalizing registry depth with
  | nil => cases depth <;> rfl
  | cons crosser outer ih =>
      cases depth with
      | zero => contradiction
      | succ depth =>
          rw [Chain.node?_cons, Heap.dropNested]
          rcases counts.unwrap_cases with ⟨node, link, goes, rest, freed, left⟩ | ⟨stays, freed⟩
          · rw [goes, rest, freed]
            simp only [link, ih left (Nat.le_of_succ_le_succ enough)]
            simp
          · rw [stays, freed]
            rfl

/-! ## What references lead to -/

/-- The links lead from a chain to the crossers on it. -/
theorem reaches_iff {chain : Chain} (counts : registry.Counts references)
    (member : chain ∈ registry.links references) {id : CrosserId} :
    registry.heap.Reaches chain.node? id ↔ id ∈ chain.map Crosser.id := by
  induction chain with
  | nil => exact ⟨nofun, nofun⟩
  | cons crosser outer ih =>
      obtain ⟨holders, found⟩ := counts.has _ member
      have around := ih (counts.outer_mem found)
      have here := heap_of_find? found
      rw [Chain.node?_cons, List.map_cons, List.mem_cons, ← around]
      constructor
      · intro reaches
        cases reaches with
        | here => exact .inl rfl
        | outwards found' further =>
            obtain rfl := Option.some.inj (here.symm.trans found')
            exact .inr further
      · rintro (rfl | further)
        · exact .here here
        · exact .outwards here further

/-- A walk along the links meets the crossers of the chain. -/
theorem walks {chain : Chain} (counts : registry.Counts references)
    (member : chain ∈ registry.links references) : registry.heap.Walks chain.node? chain := by
  induction chain with
  | nil => exact .done
  | cons crosser outer ih =>
      obtain ⟨holders, found⟩ := counts.has _ member
      exact .node (heap_of_find? found) (ih (counts.outer_mem found))

/-- What points to a registered crosser is a reference, or the link of one further in. -/
theorem pointed {registration : Registration} (counts : registry.Counts references)
    (found : registry.find? registration.crosser.id = some registration) :
    (∃ chain ∈ references, chain.node? = some registration.crosser.id) ∨
    ∃ inner, registry.find? inner.crosser.id = some inner ∧
      inner.outer = registration.crosser :: registration.outer := by
  have counted := counts.holders registration.crosser.id
  rw [holders_of_find? found] at counted
  have positive := counted ▸ counts.held found
  obtain ⟨chain, member, points⟩ := List.countP_pos_iff.mp positive
  replace points : chain.node? = some registration.crosser.id := by simpa using points
  rcases List.mem_append.mp member with given | link
  · exact .inl ⟨chain, given, points⟩
  · obtain ⟨inner, listed, rfl⟩ := List.mem_map.mp link
    refine .inr ⟨inner, counts.listed.listed.mp listed, ?_⟩
    have has := counts.has _ member
    cases outer : inner.outer with
    | nil => simp [outer] at points
    | cons crosser around =>
        rw [outer] at points has
        obtain ⟨holders, found'⟩ := has
        have same : crosser.id = registration.crosser.id := Option.some.inj points
        rw [same, found] at found'
        rw [Option.some.inj found']

/-- Whatever is registered is reached from some reference. -/
theorem registered_iff (counts : registry.Counts references) {id : CrosserId} :
    (registry.heap id).isSome ↔
      ∃ reference ∈ references, registry.heap.Reaches reference.node? id := by
  refine ⟨fun registered => ?_, fun ⟨_, _, reaches⟩ => reaches.isSome⟩
  obtain ⟨node, present⟩ := Option.isSome_iff_exists.mp registered
  obtain ⟨registration, found, rfl⟩ := Option.map_eq_some_iff.mp present
  obtain rfl := counts.listed.own found
  clear registered present
  -- Further in the chains get longer, and there are only so many crossers.
  let bound := (registry.registrations.map (·.outer.length)).sum
  induction further : bound - registration.outer.length using Nat.strong_induction_on
    generalizing registration with
  | _ remaining ih =>
      rcases counts.pointed found with ⟨chain, given, points⟩ | ⟨inner, known, link⟩
      · exact ⟨chain, given, points ▸ .here (heap_of_find? found)⟩
      · have within : inner.outer.length ≤ bound :=
          List.le_sum_of_mem (List.mem_map.mpr ⟨inner, counts.listed.listed.mpr known, rfl⟩)
        rw [link, List.length_cons] at within
        have closer : bound - inner.outer.length < remaining := by
          rw [link, List.length_cons]
          omega
        obtain ⟨reference, given, reaches⟩ := ih _ closer inner known rfl
        refine ⟨reference, given, reaches.trans (.outwards (heap_of_find? known) ?_)⟩
        rw [Registration.node, link]
        exact .here (heap_of_find? found)

/-- The crossers of a chain that is referred to are registered. -/
theorem find?_of_mem {chain : Chain} (counts : registry.Counts references)
    (member : chain ∈ registry.links references) {crosser : Crosser} (on : crosser ∈ chain) :
    ∃ outer holders, registry.find? crosser.id = some ⟨crosser, outer, holders⟩ := by
  induction chain with
  | nil => contradiction
  | cons first outer ih =>
      obtain ⟨holders, found⟩ := counts.has _ member
      rcases List.mem_cons.mp on with rfl | further
      · exact ⟨outer, holders, found⟩
      · exact ih (counts.outer_mem found) further

/-- The captors that the registry has are those of the chains that are referred to. -/
theorem mem_captors (counts : registry.Counts references) {captor : CaptorId} :
    captor ∈ registry.captors ↔
      ∃ chain ∈ references, ∃ crosser ∈ chain, crosser.captor = captor := by
  have linked {chain : Chain} (given : chain ∈ references) : chain ∈ registry.links references :=
    List.mem_append_left _ given
  rw [captors_eq, List.mem_map]
  constructor
  · rintro ⟨registration, member, rfl⟩
    have found := counts.listed.listed.mp member
    obtain ⟨chain, given, reaches⟩ := counts.registered_iff.mp
      (show (registry.heap registration.crosser.id).isSome by simp [heap_of_find? found])
    obtain ⟨crosser, on, same⟩ := List.mem_map.mp ((counts.reaches_iff (linked given)).mp reaches)
    obtain ⟨outer, holders, known⟩ := counts.find?_of_mem (linked given) on
    rw [same, found] at known
    exact ⟨chain, given, crosser, on, congrArg (·.crosser.captor) (Option.some.inj known.symm)⟩
  · rintro ⟨chain, given, crosser, on, rfl⟩
    obtain ⟨outer, holders, found⟩ := counts.find?_of_mem (linked given) on
    exact ⟨⟨crosser, outer, holders⟩, counts.listed.listed.mpr found, rfl⟩

/-! ## What goes and what stays -/

/-- What was registered has been freed or is so still. -/
theorem freed_perm {chain : Chain} (counts : registry.Counts (chain :: references)) :
    (registry.registrations.map Registration.crosser).Perm
      (registry.freed chain ++
        (registry.release chain).registrations.map Registration.crosser) := by
  induction chain generalizing registry with
  | nil => exact .refl _
  | cons crosser outer ih =>
      rcases counts.release_cases with ⟨found, last⟩ | ⟨holders, found, kept⟩
      · obtain ⟨others, before, after, -⟩ := counts.listed.split crosser.id none
        rw [found] at before
        have rest := ih (counts.free found)
        rw [last, Registry.freed, if_pos (holders_of_find? found)]
        have first := (before.trans (after.symm.cons _)).map Registration.crosser
        exact first.trans (rest.cons crosser)
      · obtain ⟨others, before, after, -⟩ := counts.listed.split crosser.id
          (some ⟨crosser, outer, holders + 1⟩)
        rw [found] at before
        rw [kept, Registry.freed, if_neg (by simp [holders_of_find? found])]
        exact (before.map Registration.crosser).trans (after.map Registration.crosser).symm

end Counts

end Registry

/-- Of two heaps the second has lost just what no reference leads to any more.  Of the
other nodes only the counts change, and the references lead on to the same. -/
structure Heap.Sheds (before : Heap) (references : List (Option CrosserId))
    (freed : List CrosserId) (after : Heap) : Prop where
  once : freed.Nodup
  exactly : ∀ id, id ∈ freed ↔ (before id).isSome ∧
    ¬ ∃ reference ∈ references, before.Reaches reference id
  gone : ∀ id ∈ freed, after id = none
  kept : ∀ id node, before id = some node → id ∉ freed →
    ∃ count, after id = some { node with count := count }
  walks : ∀ reference ∈ references, ∀ chain,
    before.Walks reference chain ↔ after.Walks reference chain

/-- The freed nodes may be told in any order. -/
theorem Heap.Sheds.perm {before after : Heap} {references : List (Option CrosserId)}
    {freed others : List CrosserId} (sheds : before.Sheds references freed after)
    (same : freed.Perm others) : before.Sheds references others after where
  once := same.nodup_iff.mp sheds.once
  exactly id := same.mem_iff.symm.trans (sheds.exactly id)
  gone id member := sheds.gone id (same.mem_iff.mpr member)
  kept id node present stays := sheds.kept id node present (same.mem_iff.not.mpr stays)
  walks := sheds.walks

namespace Registry

variable {registry : Registry} {references : List Chain} {chain : Chain}

namespace Counts

theorem sheds (counts : registry.Counts (chain :: references)) :
    registry.heap.Sheds (references.map Chain.node?) ((registry.freed chain).map Crosser.id)
      (registry.release chain).heap := by
  have rest := counts.release
  have given {reference : Chain} (member : reference ∈ references) :
      reference ∈ registry.links (chain :: references) :=
    List.mem_append_left _ (List.mem_cons_of_mem _ member)
  have left {reference : Chain} (member : reference ∈ references) :
      reference ∈ (registry.release chain).links references :=
    List.mem_append_left _ member
  have split := counts.freed_perm.map Crosser.id
  rw [List.map_append, List.map_map, List.map_map] at split
  have distinct := List.nodup_append.mp (split.nodup_iff.mp counts.listed.distinct)
  have before (id : CrosserId) : (registry.heap id).isSome ↔
      id ∈ (registry.freed chain).map Crosser.id ∨ ((registry.release chain).heap id).isSome := by
    rw [counts.listed.isSome_iff, rest.listed.isSome_iff]
    exact split.mem_iff.trans List.mem_append
  have apart (id : CrosserId) (freed : id ∈ (registry.freed chain).map Crosser.id) :
      ((registry.release chain).heap id).isSome = false := by
    rw [Bool.eq_false_iff]
    exact fun kept => distinct.2.2 id freed id (rest.listed.isSome_iff.mp kept) rfl
  have reached (id : CrosserId) : ((registry.release chain).heap id).isSome ↔
      ∃ link ∈ references.map Chain.node?, registry.heap.Reaches link id := by
    simp only [rest.registered_iff, List.mem_map, exists_exists_and_eq_and]
    refine exists_congr fun reference => and_congr_right fun member => ?_
    rw [rest.reaches_iff (left member), counts.reaches_iff (given member)]
  refine ⟨distinct.1, fun id => ?_, fun id freed => ?_, fun id node known stays => ?_,
    List.forall_mem_map.mpr fun reference member found => ?_⟩
  · rw [← reached, before]
    refine ⟨fun freed => ⟨.inl freed, by simp [apart id freed]⟩, fun ⟨either, lost⟩ => ?_⟩
    exact either.resolve_right lost
  · simpa using apart id freed
  · have kept := ((before id).mp (by simp [known])).resolve_left stays
    obtain ⟨after, present⟩ := Option.isSome_iff_exists.mp kept
    obtain ⟨registration, found, rfl⟩ := Option.map_eq_some_iff.mp present
    obtain ⟨holders, old⟩ := counts.find?_release found
    obtain rfl := Option.some.inj ((heap_of_find? old).symm.trans known)
    exact ⟨registration.holders, present⟩
  · have first := counts.walks (given member)
    have second := rest.walks (left member)
    exact ⟨fun walks => walks.unique first ▸ second, fun walks => walks.unique second ▸ first⟩

/-- The captors of the crossers that go are released with them. -/
theorem captors_perm (counts : registry.Counts (chain :: references)) :
    registry.captors.Perm
      ((registry.freed chain).map Crosser.captor ++ (registry.release chain).captors) := by
  have split := counts.freed_perm.map Crosser.captor
  rw [List.map_append, List.map_map, List.map_map] at split
  rw [captors_eq, captors_eq]
  exact split

end Counts

end Registry

end Ambient
